import MessageCompiler.Build.Failure

/-!
# Admission

A build begins only with a configuration that it can be run with. The number of folders at work is
bounded by handing out permits, and no more permits can be counted than `maxPermits`.
-/

namespace MessageCompiler.Build

/-- The largest number of permits that can be counted: three bits of 64 are kept for other
uses. -/
def maxPermits : Nat := 2305843009213693951

/-- Whether a build may begin. -/
inductive Admission where
  | granted
  | refused (failure : Failure)
  /-- The bound asks for more permits than can be counted, which ends the program at once. -/
  | uncountable
  deriving DecidableEq

def admission (config : Config) : Admission :=
  match config.check with
  | .error fault => .refused (.config fault)
  | .ok () => if maxPermits < config.cap.getD 0 then .uncountable else .granted

end MessageCompiler.Build
