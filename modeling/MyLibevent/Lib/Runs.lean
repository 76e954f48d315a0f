import Mathlib

/-!
# Runs of a machine

The states that a machine with a partial step function reaches by events which all meet a condition, and the
rule that proves an invariant of them.
-/

namespace Runs

variable {S E : Type*} {step : S → E → Option S} {Cond Cond' : S → E → Prop} {start s : S}

/-- The states reached from `start` by events that all meet `Cond`. -/
inductive Reached (step : S → E → Option S) (Cond : S → E → Prop) (start : S) : S → Prop
  | start : Reached step Cond start start
  | step {s s' : S} (e : E) : Reached step Cond start s → Cond s e → step s e = some s' → Reached step Cond start s'

/-- What holds at the start and is kept by each step holds of all states that are reached. -/
lemma Reached.invariant {P : S → Prop} (hr : Reached step Cond start s) (hstart : P start)
    (hstep : ∀ s e s', P s → Cond s e → step s e = some s' → P s') : P s := by
  induction hr with
  | start => exact hstart
  | step e _ hcond hs ih => exact hstep _ e _ ih hcond hs

lemma Reached.mono (hr : Reached step Cond start s) (himp : ∀ s e, Cond s e → Cond' s e) :
    Reached step Cond' start s := by
  induction hr with
  | start => exact .start
  | step e _ hcond hs ih => exact ih.step e (himp _ e hcond) hs

/-- What holds at the start and is kept by each step holds at the end of a list of events. -/
lemma invariant_foldlM {P : S → Prop} {s' : S} {events : List E} (hstart : P s)
    (hrun : events.foldlM step s = some s') (hstep : ∀ s, ∀ e ∈ events, ∀ s', P s → step s e = some s' → P s') :
    P s' := by
  induction events generalizing s with
  | nil =>
    cases hrun
    exact hstart
  | cons e events ih =>
    rw [List.foldlM_cons] at hrun
    obtain ⟨next, hnext, hrest⟩ := Option.bind_eq_some_iff.mp hrun
    exact ih (hstep s e List.mem_cons_self next hstart hnext) hrest
      fun s e' he' => hstep s e' (List.mem_cons_of_mem e he')

section Given

variable [∀ s e, Decidable (Cond s e)]

/-- A step, if the event meets the condition. -/
def checked (step : S → E → Option S) (Cond : S → E → Prop) [∀ s e, Decidable (Cond s e)] (s : S) (e : E) :
    Option S :=
  if Cond s e then step s e else none

lemma reached_of_foldlM {s' : S} (events : List E) (hr : Reached step Cond start s)
    (hrun : events.foldlM (checked step Cond) s = some s') : Reached step Cond start s' := by
  refine invariant_foldlM hr hrun ?_
  intro s e _ s' hr hs
  unfold checked at hs
  split at hs
  · rename_i hcond
    exact hr.step e hcond hs
  · cases hs

/-- Events that lead to a state of which `p` holds. -/
structure Given (step : S → E → Option S) (Cond : S → E → Prop) [∀ s e, Decidable (Cond s e)] (start : S)
    (p : S → Bool) where
  events : List E
  leads : (events.foldlM (checked step Cond) start).any p

lemma Given.reached {p : S → Bool} (run : Given step Cond start p) : ∃ s, Reached step Cond start s ∧ p s := by
  have hleads := run.leads
  cases hlast : run.events.foldlM (checked step Cond) start with
  | none =>
    rw [hlast] at hleads
    cases hleads
  | some s =>
    rw [hlast] at hleads
    exact ⟨s, reached_of_foldlM run.events .start hlast, hleads⟩

end Given

end Runs
