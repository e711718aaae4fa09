import Mathlib.Data.List.Basic
import MessageCompiler.Disk.Node
import MessageCompiler.Proofs.Path.Segments

/-!
# Trees of files and folders

How putting a node at a place changes what is at other places, and which trees are well-formed:
without links, with proper names, and with entries in the order of their names.

* **`Node.get?_put_apart`, `Node.get?_put_append`, `Node.get?_put_outer`**: what is found after a
  put, at places apart from it, below it and above it.
* **`Node.put_comm`**: puts at places apart from each other commute.
* **`Node.put_put_self`**: a put takes the place of an earlier one.
* **`Node.isTree_put`**: a put in an existing folder keeps a tree well-formed.
-/

namespace MessageCompiler

namespace Entries

/-! ## Entries -/

theorem insert_comm {a b : Utf8.Bytes} (hab : a ≠ b) (x y : Node) (es : Entries) :
    insert a x (insert b y es) = insert b y (insert a x es) := by
  have htotal : a < b ∨ b < a := by
    rcases Std.lt_trichotomy a b with h | h | h
    · exact .inl h
    · exact absurd h hab
    · exact .inr h
  have hasymm : ¬ (a < b ∧ b < a) := fun h => List.lt_asymm h.1 h.2
  induction es with
  | nil => grind [insert]
  | cons entry rest ih =>
    obtain ⟨n, z⟩ := entry
    have hab : a < b → b < n → a < n := List.lt_trans
    have hba : b < a → a < n → b < n := List.lt_trans
    grind [insert]

@[simp] theorem insert_insert_self (a : Utf8.Bytes) (x y : Node) (es : Entries) :
    insert a x (insert a y es) = insert a x es := by
  have hirrefl : ¬ a < a := List.lt_irrefl a
  induction es with
  | nil => grind [insert]
  | cons entry rest ih => grind [insert]

theorem find?_eq_none_iff {name : Utf8.Bytes} {es : Entries} :
    Entries.find? name es = none ↔ ∀ e ∈ es, e.1 ≠ name := by
  induction es with
  | nil => simp [find?]
  | cons entry rest ih => grind [find?]

theorem mem_of_find?_eq_some {name : Utf8.Bytes} {es : Entries} {node : Node}
    (h : Entries.find? name es = some node) : (name, node) ∈ es := by
  induction es with
  | nil => simp [find?] at h
  | cons entry rest ih => grind [find?]

/-- The entries are in the order of their names, none of which is there twice. -/
def Sorted (es : Entries) : Prop := es.Pairwise fun e e' => e.1 < e'.1

instance (es : Entries) : Decidable (Sorted es) := inferInstanceAs (Decidable (List.Pairwise _ es))

theorem sorted_cons {e : Utf8.Bytes × Node} {es : Entries} :
    Sorted (e :: es) ↔ (∀ e' ∈ es, e.1 < e'.1) ∧ Sorted es := List.pairwise_cons

theorem nodup_names {es : Entries} (hes : Sorted es) : (es.map Prod.fst).Nodup := by
  rw [List.Nodup, List.pairwise_map]
  refine List.Pairwise.imp ?_ hes
  exact fun {a b} (hlt : a.1 < b.1) heq => List.lt_irrefl b.1 (heq ▸ hlt)

theorem find?_eq_some_of_mem {es : Entries} (hes : Sorted es) {name : Utf8.Bytes} {node : Node}
    (h : (name, node) ∈ es) : Entries.find? name es = some node := by
  induction es with
  | nil => exact absurd h List.not_mem_nil
  | cons entry rest ih =>
    obtain ⟨hfirst, hrest⟩ := sorted_cons.1 hes
    rw [find?]
    rcases List.mem_cons.1 h with rfl | h
    · exact if_pos rfl
    · have hne : entry.1 ≠ name := fun heq =>
        List.lt_irrefl name (heq ▸ hfirst (name, node) h)
      rw [if_neg hne]
      exact ih hrest h

/-- **An entry is inserted at one place**: either the name is new, or its old entry gives way. -/
theorem insert_eq_append {es : Entries} (hes : Sorted es) (name : Utf8.Bytes) (node : Node) :
    ∃ before after, insert name node es = before ++ (name, node) :: after
      ∧ (es = before ++ after ∧ Entries.find? name es = none
        ∨ ∃ old, es = before ++ (name, old) :: after ∧ Entries.find? name es = some old) := by
  induction es with
  | nil => exact ⟨[], [], rfl, .inl ⟨rfl, rfl⟩⟩
  | cons entry rest ih =>
    obtain ⟨n, other⟩ := entry
    obtain ⟨hfirst, hrest⟩ := sorted_cons.1 hes
    rw [insert]
    by_cases hn : n = name
    · rw [if_pos hn]
      exact ⟨[], rest, rfl, .inr ⟨other, by rw [hn]; rfl, by rw [find?, if_pos hn]⟩⟩
    rw [if_neg hn]
    by_cases hlt : name < n
    · rw [if_pos hlt]
      refine ⟨[], (n, other) :: rest, rfl, .inl ⟨rfl, ?_⟩⟩
      -- the names ascend, so none after a greater one is the one that is looked for
      rw [find?_eq_none_iff]
      intro e he
      rcases List.mem_cons.1 he with rfl | he
      · exact hn
      · exact fun heq => List.lt_irrefl name (List.lt_trans hlt (heq ▸ hfirst e he))
    · rw [if_neg hlt]
      obtain ⟨before, after, hinsert, hcases⟩ := ih hrest
      refine ⟨(n, other) :: before, after, by rw [hinsert]; rfl, ?_⟩
      rcases hcases with ⟨hes', hfind⟩ | ⟨old, hes', hfind⟩
      · exact .inl ⟨by rw [hes']; rfl, by rw [find?, if_neg hn, hfind]⟩
      · exact .inr ⟨old, by rw [hes']; rfl, by rw [find?, if_neg hn, hfind]⟩

/-- **What is selected of the entries stays**, if nothing is selected of the new entry but what was
selected of the old one. -/
theorem filterMap_insert {α : Type} {es : Entries} (hes : Sorted es) {name : Utf8.Bytes}
    {node : Node} (f : Utf8.Bytes × Node → Option α)
    (h : f (name, node) = (Entries.find? name es).bind fun old => f (name, old)) :
    (insert name node es).filterMap f = es.filterMap f := by
  obtain ⟨before, after, hinsert, ⟨hes', hfind⟩ | ⟨old, hes', hfind⟩⟩ :=
    insert_eq_append hes name node
  · rw [hfind, Option.bind_none] at h
    rw [hinsert, hes', List.filterMap_append, List.filterMap_append, List.filterMap_cons_none h]
  · rw [hfind, Option.bind_some] at h
    rw [hinsert, hes', List.filterMap_append, List.filterMap_append, List.filterMap_cons,
      List.filterMap_cons, h]

theorem eq_or_mem_of_mem_insert {es : Entries} (hes : Sorted es) {name : Utf8.Bytes} {node : Node}
    {e : Utf8.Bytes × Node} (he : e ∈ insert name node es) : e = (name, node) ∨ e ∈ es := by
  obtain ⟨before, after, hinsert, hcases⟩ := insert_eq_append hes name node
  have hold : e ∈ before ∨ e ∈ after → e ∈ es := fun hmem => by
    rcases hcases with ⟨h, -⟩ | ⟨_, h, -⟩
    · rw [h]
      exact List.mem_append.2 hmem
    · rw [h]
      exact List.mem_append.2 (hmem.imp_right (List.mem_cons_of_mem _))
  rw [hinsert] at he
  rcases List.mem_append.1 he with he | he
  · exact .inr (hold (.inl he))
  rcases List.mem_cons.1 he with rfl | he
  · exact .inl rfl
  · exact .inr (hold (.inr he))

theorem sorted_insert {es : Entries} (hes : Sorted es) (name : Utf8.Bytes) (node : Node) :
    Sorted (insert name node es) := by
  induction es with
  | nil => exact List.pairwise_singleton _ _
  | cons entry rest ih =>
    obtain ⟨n, other⟩ := entry
    obtain ⟨hfirst, hrest⟩ := sorted_cons.1 hes
    rw [insert]
    by_cases hn : n = name
    · rw [if_pos hn]
      exact sorted_cons.2 ⟨fun e he => hn ▸ hfirst e he, hrest⟩
    rw [if_neg hn]
    by_cases hlt : name < n
    · rw [if_pos hlt]
      refine sorted_cons.2 ⟨fun e he => ?_, hes⟩
      rcases List.mem_cons.1 he with rfl | he
      · exact hlt
      · exact List.lt_trans hlt (hfirst e he)
    · rw [if_neg hlt]
      have hgt : n < name := by
        rcases Std.lt_trichotomy name n with h | h | h
        · exact absurd h hlt
        · exact absurd h.symm hn
        · exact h
      refine sorted_cons.2 ⟨fun e he => ?_, ih hrest⟩
      rcases eq_or_mem_of_mem_insert hrest he with rfl | he
      · exact hgt
      · exact hfirst e he

end Entries
/-- Places neither of which is on the way to the other. -/
def Place.Apart (p q : Place) : Prop := ¬ p <+: q ∧ ¬ q <+: p

namespace Place.Apart

theorem symm {p q : Place} (h : p.Apart q) : q.Apart p := ⟨h.2, h.1⟩

/-- Places apart from each other part at some name. -/
theorem cases {p q : Place} (h : p.Apart q) : ∃ m n p' q', p = m :: p' ∧ q = n :: q'
    ∧ (m ≠ n ∨ m = n ∧ Apart p' q') := by
  cases p with
  | nil => exact absurd List.nil_prefix h.1
  | cons m p' =>
    cases q with
    | nil => exact absurd List.nil_prefix h.2
    | cons n q' =>
      refine ⟨m, n, p', q', rfl, rfl, ?_⟩
      by_cases hmn : m = n
      · subst hmn
        refine .inr ⟨rfl, fun hpre => h.1 ?_, fun hpre => h.2 ?_⟩
        · exact List.cons_prefix_cons.2 ⟨rfl, hpre⟩
        · exact List.cons_prefix_cons.2 ⟨rfl, hpre⟩
      · exact .inl hmn

theorem append {p q : Place} (h : p.Apart q) (r s : Place) : Apart (p ++ r) (q ++ s) := by
  have haux : ∀ {p q r s : Place}, p.Apart q → ¬ p ++ r <+: q ++ s := by
    intro p q r s hpq hpre
    rcases List.prefix_or_prefix_of_prefix ((List.prefix_append p r).trans hpre)
      (List.prefix_append q s) with hp | hq
    · exact hpq.1 hp
    · exact hpq.2 hq
  exact ⟨haux h, haux h.symm⟩

theorem of_ne (p : Place) {m n : Utf8.Bytes} (h : m ≠ n) : Apart (p ++ [m]) (p ++ [n]) := by
  have haux : ∀ {m n : Utf8.Bytes}, m ≠ n → ¬ p ++ [m] <+: p ++ [n] := by
    intro m n hmn hpre
    have := (List.prefix_append_right_inj p).1 hpre
    exact hmn (List.cons_prefix_cons.1 this).1
  exact ⟨haux h, haux h.symm⟩

end Place.Apart

/-- How a place stands to a name in a folder: it is there or further below, it is the folder or above
it, or it is apart from the name. -/
theorem Place.cases_concat (q : Place) (name : Utf8.Bytes) (p : Place) :
    (∃ rest, p = q ++ [name] ++ rest) ∨ (∃ rest, q = p ++ rest) ∨ Apart (q ++ [name]) p := by
  by_cases hbelow : q ++ [name] <+: p
  · obtain ⟨rest, rfl⟩ := hbelow
    exact .inl ⟨rest, rfl⟩
  by_cases habove : p <+: q ++ [name]
  · rcases List.prefix_concat_iff.1 habove with heq | ⟨rest, rfl⟩
    · exact absurd (heq ▸ List.prefix_refl p) hbelow
    · exact .inr (.inl ⟨rest, rfl⟩)
  · exact .inr (.inr ⟨hbelow, habove⟩)

namespace Node

/-! ## Looking up and putting -/

theorem get?_append (node : Node) (p q : Place) :
    node.get? (p ++ q) = (node.get? p).bind (·.get? q) := by
  induction p generalizing node with
  | nil => rw [List.nil_append, get?_nil, Option.bind_some]
  | cons name rest ih =>
    rw [List.cons_append, get?_cons, get?_cons, Option.bind_assoc]
    exact congrArg _ (funext fun child => ih child)

theorem exists_folder_of_get?_append {node : Node} {p : Place} {name : Utf8.Bytes} {rest : Place}
    {found : Node} (h : node.get? (p ++ name :: rest) = some found) :
    ∃ es child, node.get? p = some (.folder es) ∧ Entries.find? name es = some child
      ∧ child.get? rest = some found := by
  rw [get?_append] at h
  obtain ⟨outer, houter, hinner⟩ := Option.bind_eq_some_iff.1 h
  rw [get?_cons] at hinner
  obtain ⟨child, hchild, hfound⟩ := Option.bind_eq_some_iff.1 hinner
  cases outer with
  | folder es => exact ⟨es, child, houter, hchild, hfound⟩
  | file contents => exact absurd hchild (by simp [entries, Entries.find?])
  | link target => exact absurd hchild (by simp [entries, Entries.find?])

theorem exists_folder_of_get?_cons {node : Node} {name : Utf8.Bytes} {rest : Place} {found : Node}
    (h : node.get? (name :: rest) = some found) : ∃ es child, node = .folder es
      ∧ Entries.find? name es = some child ∧ child.get? rest = some found := by
  obtain ⟨es, child, hnode, hchild, hrest⟩ := exists_folder_of_get?_append (p := []) h
  rw [get?_nil] at hnode
  exact ⟨es, child, Option.some.inj hnode, hchild, hrest⟩

theorem get?_append_singleton {node : Node} {p : Place} {es : Entries}
    (h : node.get? p = some (.folder es)) (name : Utf8.Bytes) :
    node.get? (p ++ [name]) = Entries.find? name es := by
  rw [get?_append, h, Option.bind_some, get?_cons]
  show (Entries.find? name es).bind _ = _
  cases Entries.find? name es with
  | none => rfl
  | some child => exact get?_nil child

theorem get?_put_append (new : Node) (p q : Place) (node : Node) :
    (put new p node).get? (p ++ q) = new.get? q := by
  rw [get?_append, get?_put_self, Option.bind_some]

/-- **Apart from the place of a put nothing changes.** -/
theorem get?_put_apart (new : Node) {p q : Place} (h : p.Apart q) (node : Node) :
    (put new p node).get? q = node.get? q := by
  induction p generalizing q node with
  | nil => exact absurd List.nil_prefix h.1
  | cons m p ih =>
    obtain ⟨_, n, _, q', hp, rfl, hcases⟩ := h.cases
    obtain ⟨rfl, rfl⟩ := List.cons.inj hp
    rw [put, get?_cons, get?_cons]
    show (Entries.find? n (Entries.insert m _ node.entries)).bind _ = _
    rw [Entries.find?_insert]
    rcases hcases with hne | ⟨rfl, hapart⟩
    · rw [if_neg (Ne.symm hne)]
    · rw [if_pos rfl, Option.bind_some, ih hapart]
      cases Entries.find? m node.entries with
      | some child => rfl
      | none =>
        -- the folder that was made for the put has nothing in it but what is put
        obtain ⟨_, k, _, q'', _, rfl, _⟩ := hapart.cases
        rfl

theorem put_append (new : Node) (p q : Place) (node : Node) :
    put new (p ++ q) node = put (put new q ((node.get? p).getD (.folder []))) p node := by
  induction p generalizing node with
  | nil => rw [List.nil_append, get?_nil, put, Option.getD_some]
  | cons name rest ih =>
    rw [List.cons_append, put, put, ih, get?_cons]
    cases Entries.find? name node.entries with
    | some child => rfl
    | none =>
      cases rest with
      | nil => rfl
      | cons _ _ => rfl

/-- **Above the place of a put one entry of a folder changes.** -/
theorem get?_put_outer (new : Node) {p : Place} (name : Utf8.Bytes) (rest : Place) {node : Node}
    {es : Entries} (h : node.get? p = some (.folder es)) :
    (put new (p ++ name :: rest) node).get? p = some (.folder (Entries.insert name
      (put new rest ((Entries.find? name es).getD (.folder []))) es)) := by
  rw [put_append, get?_put_self, h]
  rfl

/-- **Puts at places apart from each other commute.** -/
theorem put_comm (x y : Node) {p q : Place} (h : p.Apart q) (node : Node) :
    put x p (put y q node) = put y q (put x p node) := by
  induction p generalizing q node with
  | nil => exact absurd List.nil_prefix h.1
  | cons m p ih =>
    obtain ⟨_, n, _, q', hp, rfl, hcases⟩ := h.cases
    obtain ⟨rfl, rfl⟩ := List.cons.inj hp
    simp only [put, entries, Entries.find?_insert]
    rcases hcases with hne | ⟨rfl, hapart⟩
    · rw [if_neg hne, if_neg (Ne.symm hne), Entries.insert_comm hne]
    · simp only [if_true, Option.getD_some, Entries.insert_insert_self, ih hapart]

@[simp] theorem put_put_self (x y : Node) (p : Place) (node : Node) :
    put x p (put y p node) = put x p node := by
  induction p generalizing node with
  | nil => rfl
  | cons name rest ih =>
    simp only [put, entries, Entries.find?_insert, if_true, Option.getD_some, ih,
      Entries.insert_insert_self]

/-! ## Well-formed trees -/

mutual

/-- Whether a tree has no links, and the entries of its folders have proper names and stand in the
order of their names. -/
def isTree : Node → Bool
  | .file _ => true
  | .link _ => false
  | .folder es => isTreeAmong es

/-- Whether entries have proper names, stand in the order of their names and are well-formed
trees. -/
def isTreeAmong : List (Utf8.Bytes × Node) → Bool
  | [] => true
  | (name, node) :: rest =>
    decide (Path.IsName name) && rest.all (decide <| name < ·.1) && isTree node && isTreeAmong rest

end

theorem isTreeAmong_iff {es : Entries} : isTreeAmong es = true
    ↔ Entries.Sorted es ∧ ∀ e ∈ es, Path.IsName e.1 ∧ e.2.isTree = true := by
  induction es with
  | nil => simp [isTreeAmong, Entries.Sorted]
  | cons entry rest ih =>
    obtain ⟨name, node⟩ := entry
    rw [isTreeAmong, Bool.and_eq_true, Bool.and_eq_true, Bool.and_eq_true, ih, decide_eq_true_iff,
      List.all_eq_true, Entries.sorted_cons, List.forall_mem_cons]
    simp only [decide_eq_true_iff]
    constructor
    · rintro ⟨⟨⟨hname, hall⟩, hnode⟩, hsorted, hrest⟩
      exact ⟨⟨hall, hsorted⟩, ⟨hname, hnode⟩, hrest⟩
    · rintro ⟨⟨hall, hsorted⟩, ⟨hname, hnode⟩, hrest⟩
      exact ⟨⟨⟨hname, hall⟩, hnode⟩, hsorted, hrest⟩

theorem isTree_of_get? {node : Node} (h : node.isTree = true) {p : Place} {found : Node}
    (hfound : node.get? p = some found) : found.isTree = true := by
  induction p generalizing node with
  | nil =>
    rw [get?_nil] at hfound
    rw [← Option.some.inj hfound]
    exact h
  | cons name rest ih =>
    obtain ⟨es, child, rfl, hchild, hrest⟩ := exists_folder_of_get?_cons hfound
    exact ih ((isTreeAmong_iff.1 h).2 _ (Entries.mem_of_find?_eq_some hchild)).2 hrest

theorem ne_link_of_get? {node : Node} (h : node.isTree = true) {p : Place} {found : Node}
    (hfound : node.get? p = some found) (target : Path) : found ≠ .link target := by
  rintro rfl
  exact Bool.false_ne_true (isTree_of_get? h hfound)

theorem isTreeAmong_insert {es : Entries} (hes : isTreeAmong es = true) {name : Utf8.Bytes}
    (hname : Path.IsName name) {new : Node} (hnew : new.isTree = true) :
    isTreeAmong (Entries.insert name new es) = true := by
  obtain ⟨hsorted, hall⟩ := isTreeAmong_iff.1 hes
  refine isTreeAmong_iff.2 ⟨Entries.sorted_insert hsorted name new, fun e he => ?_⟩
  rcases Entries.eq_or_mem_of_mem_insert hsorted he with rfl | he
  · exact ⟨hname, hnew⟩
  · exact hall e he

/-- **A put in an existing folder keeps a tree well-formed.** -/
theorem isTree_put {node : Node} (h : node.isTree = true) {new : Node} (hnew : new.isTree = true)
    {p : Place} {es : Entries} (hp : node.get? p = some (.folder es)) {name : Utf8.Bytes}
    (hname : Path.IsName name) : (put new (p ++ [name]) node).isTree = true := by
  induction p generalizing node with
  | nil =>
    rw [get?_nil] at hp
    rw [Option.some.inj hp] at h ⊢
    exact isTreeAmong_insert h hname hnew
  | cons m rest ih =>
    obtain ⟨outer, child, rfl, hchild, hrest⟩ := exists_folder_of_get?_cons hp
    have hm := (isTreeAmong_iff.1 h).2 _ (Entries.mem_of_find?_eq_some hchild)
    rw [List.cons_append, put]
    show isTreeAmong (Entries.insert m (put new (rest ++ [name])
      ((Entries.find? m outer).getD (.folder []))) outer) = true
    rw [hchild]
    exact isTreeAmong_insert h hm.1 (ih hm.2 hrest)

end Node

end MessageCompiler
