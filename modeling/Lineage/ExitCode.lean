/-!
# Exit codes

How a run ends. Of two codes the worse one is the smaller of those that are not success.
-/

namespace Lineage

/-- The outcome of a run as a number. -/
inductive ExitCode
  | success
  | generalError
  | blockingError
  | notFound
  | parseError
  | ioError
  | configError
  deriving DecidableEq, Repr, Inhabited

namespace ExitCode

/-- All codes in the order of their numbers. -/
def all : List ExitCode :=
  [success, generalError, blockingError, notFound, parseError, ioError, configError]

def number : ExitCode → Nat
  | success => 0
  | generalError => 1
  | blockingError => 2
  | notFound => 3
  | parseError => 4
  | ioError => 5
  | configError => 6

def ofNumber? (n : Nat) : Option ExitCode :=
  all.find? (·.number = n)

def worst (a b : ExitCode) : ExitCode :=
  match a, b with
  | success, b => b
  | a, success => a
  | a, b => if b.number < a.number then b else a

def worstOf (codes : List ExitCode) : ExitCode :=
  codes.foldl worst success

theorem worst_comm (a b : ExitCode) : a.worst b = b.worst a := by
  cases a <;> cases b <;> rfl

theorem worst_assoc (a b c : ExitCode) : (a.worst b).worst c = a.worst (b.worst c) := by
  cases a <;> cases b <;> cases c <;> rfl

end ExitCode

end Lineage
