import MessageCompiler.Proofs.Text.Utf8
import MessageCompiler.Text.UpperCase

/-!
# What is known of upper case

Three things are asked of the table of upper case. Each comes down to a check of its two lists, one
entry against another at most, and then holds of every character, whether it is in a list or is its
own upper case.

* **`eq_of_mem_upper`**: no upper case brings in a space or a mark that comes before the letters.
* **`upper_ne_nil`**: no upper case is empty.
* **`upper_of_head?_upper`**: an upper case starts with a character that is its own upper case.
-/

namespace MessageCompiler.Text

/-! ## The table -/

/-- The cases of the table: several characters, another one, or the same one. -/
theorem upperCodes_cases (n : Nat) :
    (∃ codes, (n, codes) ∈ UpperCase.expansions ∧ upperCodes n = codes)
      ∨ (∃ run ∈ UpperCase.runs, ∃ code, run.upperOf? n = some code ∧ upperCodes n = [code])
      ∨ upperCodes n = [n] := by
  cases hlookup : UpperCase.expansions.lookup n with
  | some codes =>
    obtain ⟨before, after, heq, -⟩ := List.lookup_eq_some_iff.1 hlookup
    exact .inl ⟨codes, by rw [heq]; simp, by rw [upperCodes, hlookup]⟩
  | none =>
    cases hfind : UpperCase.runs.findSome? (·.upperOf? n) with
    | some code =>
      obtain ⟨run, hrun, hupper⟩ := List.exists_of_findSome?_eq_some hfind
      exact .inr (.inl ⟨run, hrun, code, hupper, by rw [upperCodes, hlookup, hfind]⟩)
    | none => exact .inr (.inr (by rw [upperCodes, hlookup, hfind]))

theorem upperCodes_eq_self {n : Nat} (hexpansions : ∀ e ∈ UpperCase.expansions, e.1 ≠ n)
    (hruns : ∀ run ∈ UpperCase.runs, run.upperOf? n = none) : upperCodes n = [n] := by
  rcases upperCodes_cases n with ⟨codes, hmem, -⟩ | ⟨run, hrun, code, hupper, -⟩ | hself
  · exact absurd rfl (hexpansions _ hmem)
  · rw [hruns run hrun] at hupper
    cases hupper
  · exact hself

namespace UpperCase.Run

variable {run other : UpperCase.Run} {n code : Nat}

theorem upperOf?_eq_some (h : run.upperOf? n = some code) :
    run.first ≤ n ∧ n ≤ run.last ∧ (n - run.first) % run.stride = 0
      ∧ code = run.upper + (n - run.first) := by
  rw [upperOf?] at h
  split at h
  · next hin =>
    simp only [Bool.and_eq_true, decide_eq_true_eq, beq_iff_eq] at hin
    exact ⟨hin.1.1, hin.1.2, hin.2, (Option.some.inj h).symm⟩
  · cases h

/-- Nothing that one run maps to is in the other: it lies below or above, or is even where the other
run is odd. -/
def clears (run other : UpperCase.Run) : Bool :=
  Nat.blt (run.upper + (run.last - run.first)) other.first || Nat.blt other.last run.upper
    || ((run.first == run.last || run.stride == 2) && other.stride == 2
      && run.upper % 2 != other.first % 2)

theorem upperOf?_eq_none_of_clears (h : run.clears other = true) (hn : run.upperOf? n = some code) :
    other.upperOf? code = none := by
  obtain ⟨hfirst, hlast, hstride, rfl⟩ := upperOf?_eq_some hn
  simp only [clears, Bool.or_eq_true, Bool.and_eq_true, Nat.blt_eq, beq_iff_eq, bne_iff_ne] at h
  rw [upperOf?, if_neg]
  simp only [Bool.and_eq_true, decide_eq_true_eq, beq_iff_eq]
  rintro ⟨⟨hother, hother'⟩, hodd⟩
  rcases h with (hbelow | habove) | ⟨⟨hsteps, hother_stride⟩, hparity⟩
  · omega
  · omega
  · have heven : (n - run.first) % 2 = 0 := by
      rcases hsteps with hsingle | hstep
      · omega
      · rwa [hstep] at hstride
    rw [hother_stride] at hodd
    omega

end UpperCase.Run

theorem clears_of_mem_runs {run other : UpperCase.Run} (hrun : run ∈ UpperCase.runs)
    (hother : other ∈ UpperCase.runs) : run.clears other = true := by
  have hall : (UpperCase.runs.all fun run => UpperCase.runs.all run.clears) = true := by
    decide +kernel
  exact List.all_eq_true.1 (List.all_eq_true.1 hall run hrun) other hother

theorem ne_of_mem_runs {run : UpperCase.Run} {n code : Nat} (hrun : run ∈ UpperCase.runs)
    (hupper : run.upperOf? n = some code) : ∀ e ∈ UpperCase.expansions, e.1 ≠ code := by
  have hall : (UpperCase.runs.all fun run => UpperCase.expansions.all fun e =>
      Nat.blt e.1 run.upper || Nat.blt (run.upper + (run.last - run.first)) e.1) = true := by
    decide +kernel
  intro e he
  have hapart := List.all_eq_true.1 (List.all_eq_true.1 hall run hrun) e he
  obtain ⟨-, hlast, -, rfl⟩ := UpperCase.Run.upperOf?_eq_some hupper
  simp only [Bool.or_eq_true, Nat.blt_eq] at hapart
  omega

/-- **An upper case starts with what is its own upper case.** -/
theorem upperCodes_of_head?_upperCodes {n code : Nat} (h : (upperCodes n).head? = some code) :
    upperCodes code = [code] := by
  have hexpansions : (UpperCase.expansions.all fun e => e.2.head?.all fun code =>
      upperCodes code == [code]) = true := by decide +kernel
  rcases upperCodes_cases n with ⟨codes, hmem, heq⟩ | ⟨run, hrun, image, hupper, heq⟩ | heq
  · have hhead := List.all_eq_true.1 hexpansions _ hmem
    rw [heq] at h
    rw [h] at hhead
    exact beq_iff_eq.1 hhead
  · rw [heq] at h
    obtain rfl : image = code := Option.some.inj h
    exact upperCodes_eq_self (ne_of_mem_runs hrun hupper) fun other hother =>
      UpperCase.Run.upperOf?_eq_none_of_clears (clears_of_mem_runs hrun hother) hupper
  · rw [heq] at h
    obtain rfl : n = code := Option.some.inj h
    exact heq

/-! ## Characters -/

/-- A character that is told by a code point has it, unless it stands for one that is none. -/
theorem eq_toNat_of_ofNat_eq {n : Nat} {c : Char} (hc : c.toNat ≠ 0) (h : Char.ofNat n = c) :
    n = c.toNat := by
  subst h
  exact ((Utf8.toNat_ofNat n).resolve_right hc).symm

/-- **What comes before the letters comes from itself only**: the space, the marks and the digits. -/
theorem eq_of_mem_upper {c d : Char} (hd : d.toNat ≠ 0 ∧ d.toNat ≤ 0x40) (h : d ∈ upper c) :
    c = d := by
  have hruns : ∀ run ∈ UpperCase.runs, 0x40 < run.upper := by decide +kernel
  have hexpansions : ∀ e ∈ UpperCase.expansions, ∀ code ∈ e.2, 0x40 < code := by decide +kernel
  obtain ⟨code, hcode, hchar⟩ := List.mem_map.1 h
  obtain rfl : code = d.toNat := eq_toNat_of_ofNat_eq hd.1 hchar
  rcases upperCodes_cases c.toNat with ⟨codes, hmem, heq⟩ | ⟨run, hrun, image, hupper, heq⟩ | heq
  · have := hexpansions _ hmem _ (heq ▸ hcode)
    omega
  · have hlt := hruns run hrun
    obtain ⟨-, -, -, hsum⟩ := UpperCase.Run.upperOf?_eq_some hupper
    have himage := List.mem_singleton.1 (heq ▸ hcode)
    omega
  · have hself := List.mem_singleton.1 (heq ▸ hcode)
    exact Char.toNat_inj.1 hself.symm

/-- **No character has an empty upper case.** -/
theorem upper_ne_nil (c : Char) : upper c ≠ [] := by
  have hexpansions : ∀ e ∈ UpperCase.expansions, e.2 ≠ [] := by decide +kernel
  have hcodes : upperCodes c.toNat ≠ [] := by
    rcases upperCodes_cases c.toNat with ⟨codes, hmem, heq⟩ | ⟨-, -, code, -, heq⟩ | heq
    · exact heq ▸ hexpansions _ hmem
    · exact heq ▸ List.cons_ne_nil _ _
    · exact heq ▸ List.cons_ne_nil _ _
  exact fun h => hcodes (List.map_eq_nil_iff.1 h)

/-- **An upper case starts with a character that is its own upper case.** -/
theorem upper_of_head?_upper {c d : Char} (h : (upper c).head? = some d) : upper d = [d] := by
  rw [upper, List.head?_map] at h
  obtain ⟨code, hcode, rfl⟩ := Option.map_eq_some_iff.1 h
  rcases Utf8.toNat_ofNat code with hnat | hnat
  · rw [upper, hnat, upperCodes_of_head?_upperCodes hcode, List.map_singleton]
  · have hzero : upperCodes 0 = [0] := by decide +kernel
    have hchar : Char.ofNat 0 = Char.ofNat code := by rw [← hnat, Char.ofNat_toNat]
    rw [upper, hnat, hzero, List.map_singleton, hchar]

end MessageCompiler.Text
