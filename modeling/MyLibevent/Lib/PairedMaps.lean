import Mathlib

/-!
Two maps that are the inverse of each other, as an association that is looked up from both sides.
-/

namespace PairedMaps

open Function

variable {α β : Type*} {f : α → Option β} {g : β → Option α} {a : α} {b : β}

def Paired (f : α → Option β) (g : β → Option α) : Prop := ∀ a b, f a = some b ↔ g b = some a

lemma paired_empty : Paired (fun _ : α => (none : Option β)) (fun _ => none) := by
  intro a b
  constructor <;> intro h <;> cases h

variable [DecidableEq α] [DecidableEq β]

lemma Paired.insert (h : Paired f g) (ha : f a = none) (hb : g b = none) :
    Paired (update f a (some b)) (update g b (some a)) := by
  intro a' b'
  by_cases haa : a' = a
  · subst haa
    by_cases hbb : b' = b
    · subst hbb
      rw [update_self, update_self]
      exact ⟨fun _ => rfl, fun _ => rfl⟩
    · rw [update_self, update_of_ne hbb, ← h, ha, Option.some.injEq]
      exact ⟨fun heq => absurd heq.symm hbb, fun heq => (by cases heq)⟩
  · rw [update_of_ne haa]
    by_cases hbb : b' = b
    · subst hbb
      rw [update_self, h, hb, Option.some.injEq]
      exact ⟨fun heq => (by cases heq), fun heq => absurd heq.symm haa⟩
    · rw [update_of_ne hbb, h]

lemma Paired.erase (h : Paired f g) (hb : g b = some a) : Paired (update f a none) (update g b none) := by
  have ha : f a = some b := (h a b).mpr hb
  intro a' b'
  by_cases haa : a' = a
  · subst haa
    rw [update_self]
    by_cases hbb : b' = b
    · subst hbb
      rw [update_self]
      exact ⟨fun heq => (by cases heq), fun heq => (by cases heq)⟩
    · rw [update_of_ne hbb, ← h, ha, Option.some.injEq]
      exact ⟨fun heq => (by cases heq), fun heq => absurd heq.symm hbb⟩
  · rw [update_of_ne haa]
    by_cases hbb : b' = b
    · subst hbb
      rw [update_self, h, hb, Option.some.injEq]
      exact ⟨fun heq => absurd heq.symm haa, fun heq => (by cases heq)⟩
    · rw [update_of_ne hbb, h]

end PairedMaps
