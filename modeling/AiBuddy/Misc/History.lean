import Mathlib.Data.List.Basic

/-!
# Histories of a labelled transition system

A history is the list of labels of a run, oldest first. Silent moves change the
state and leave no label. The rules here turn what one step preserves into what
holds after every run and at every label of a run.
-/

/-- The runs of a system from `start`, with the labels they left. -/
inductive History {S L : Type} (step : S → L → S → Prop) (silent : S → S → Prop) (start : S) :
    List L → S → Prop where
  | nil : History step silent start [] start
  | step {labels : List L} {s t : S} {label : L} :
      History step silent start labels s → step s label t →
        History step silent start (labels ++ [label]) t
  | silent {labels : List L} {s t : S} :
      History step silent start labels s → silent s t → History step silent start labels t

namespace History

variable {S L : Type} {step : S → L → S → Prop} {silent : S → S → Prop} {start : S}

theorem invariant {labels : List L} {s : S} (run : History step silent start labels s)
    (inv : List L → S → Prop) (hstart : inv [] start)
    (hstep : ∀ labels s label t, inv labels s → step s label t → inv (labels ++ [label]) t)
    (hsilent : ∀ labels s t, inv labels s → silent s t → inv labels t) : inv labels s := by
  induction run with
  | nil => exact hstart
  | step _ h ih => exact hstep _ _ _ _ ih h
  | silent _ h ih => exact hsilent _ _ _ ih h

theorem around {labels : List L} {s : S} (run : History step silent start labels s) :
    ∀ {before after : List L} {label : L}, labels = before ++ label :: after →
      ∃ u v, History step silent start before u ∧ step u label v := by
  induction run with
  | nil => intro before after label h; simp at h
  | silent _ _ ih => exact ih
  | @step labels s t last run hlast ih =>
    intro before after label h
    rcases List.eq_nil_or_concat after with rfl | ⟨after, final, rfl⟩
    · obtain ⟨rfl, hl⟩ := List.append_inj' h rfl
      cases hl
      exact ⟨s, t, run, hlast⟩
    · rw [List.concat_eq_append, ← List.cons_append, ← List.append_assoc] at h
      obtain ⟨hlabels, -⟩ := List.append_inj' h rfl
      exact ih hlabels

end History

def Always {E : Type} (p : E → List E → Prop) : List E → Prop
  | [] => True
  | entry :: earlier => p entry earlier ∧ Always p earlier

namespace Always

variable {E : Type} {p : E → List E → Prop}

theorem earlier {new earlier : List E} (h : Always p (new ++ earlier)) : Always p earlier := by
  induction new with
  | nil => exact h
  | cons entry new ih => exact ih h.2

theorem append {new earlier : List E} (h : Always p earlier)
    (hnew : ∀ entry ∈ new, ∀ log, p entry log) : Always p (new ++ earlier) := by
  induction new with
  | nil => exact h
  | cons entry new ih =>
    exact ⟨hnew entry List.mem_cons_self _,
      ih fun other hother => hnew other (List.mem_cons_of_mem _ hother)⟩

end Always
