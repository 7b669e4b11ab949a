import Relmap.Connection

/-!
# Sessions step by step

A computation on a state that may fail, run from a state: the second of two steps is run from the
state that the first one leaves, unless the first one fails.
-/

namespace Relmap.Session

variable {σ α β : Type} {x : Session σ α} {f : α → Session σ β} {y : Except Failure α} {s t : σ}

theorem run_bind_of_ok {a : α} (h : x.run.run s = (.ok a, t)) :
    (x >>= f).run.run s = (f a).run.run t := by
  simp only [ExceptT.run_bind, StateT.run_bind, h]
  rfl

/-- A step that fails is the last one. -/
theorem run_bind_of_error {e : Failure} (h : x.run.run s = (.error e, t)) :
    (x >>= f).run.run s = (.error e, t) := by
  simp only [ExceptT.run_bind, StateT.run_bind, h]
  rfl

theorem run_catch_of_ok {g : Failure → Session σ α} {a : α} (h : x.run.run s = (.ok a, t)) :
    (tryCatch x g).run.run s = (.ok a, t) := by
  simp only [ExceptT.run_tryCatch, StateT.run_bind, h]
  rfl

theorem run_catch_of_error {g : Failure → Session σ α} {e : Failure}
    (h : x.run.run s = (.error e, t)) : (tryCatch x g).run.run s = (g e).run.run t := by
  simp only [ExceptT.run_tryCatch, StateT.run_bind, h]
  rfl

theorem run_get_bind (f : σ → Session σ β) (s : σ) :
    ((get : Session σ σ) >>= f).run.run s = (f s).run.run s := rfl

theorem run_given_ok {a : α} (h : y = .ok a) :
    (ofExcept y >>= f).run.run s = (f a).run.run s := by
  subst h
  rfl

/-- A result that is a failure keeps the state. -/
theorem run_given_error {e : Failure} (h : y = .error e) :
    (ofExcept y >>= f).run.run s = (.error e, s) := by
  subst h
  rfl

end Relmap.Session
