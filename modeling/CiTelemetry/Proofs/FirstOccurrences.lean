/-
This file tells how the distinct elements of a list, in the order in which they
first occur, grow with the list. Tables that are filled entry after entry hold
their keys in this order.
-/

import Mathlib.Data.List.Nodup
import Mathlib.Data.List.Induction

namespace CiTelemetry

variable {α : Type} [DecidableEq α]

/-- An element at the end is a new one unless it has occurred before. -/
theorem eraseDups_concat (items : List α) (item : α) :
    (items ++ [item]).eraseDups =
      if item ∈ items then items.eraseDups else items.eraseDups ++ [item] := by
  rw [List.eraseDups_append]
  split
  · next known =>
    have nothing : [item].removeAll items = [] := by simp [List.removeAll, known]
    rw [nothing, List.eraseDups_nil, List.append_nil]
  · next isNew =>
    have itself : [item].removeAll items = [item] := by simp [List.removeAll, isNew]
    rw [itself, List.eraseDups_cons, List.filter_nil, List.eraseDups_nil]

theorem nodup_eraseDups (items : List α) : items.eraseDups.Nodup := by
  induction items using List.reverseRecOn with
  | nil => exact List.nodup_nil
  | append_singleton items item inductionHypothesis =>
    rw [eraseDups_concat]
    split
    · exact inductionHypothesis
    · next isNew =>
      refine List.nodup_append.mpr ⟨inductionHypothesis, List.nodup_singleton item, ?_⟩
      intro earlier before last isLast same
      rw [same, List.mem_singleton.mp isLast] at before
      exact isNew (List.mem_eraseDups.mp before)

/-- Elements that are distinct already stay as they are. -/
theorem eraseDups_of_nodup {items : List α} (distinct : items.Nodup) : items.eraseDups = items := by
  induction items using List.reverseRecOn with
  | nil => rfl
  | append_singleton items item inductionHypothesis =>
    obtain ⟨before, _, apart⟩ := List.nodup_append.mp distinct
    have isNew : item ∉ items := fun known => apart item known item List.mem_cons_self rfl
    rw [eraseDups_concat, if_neg isNew, inductionHypothesis before]

end CiTelemetry
