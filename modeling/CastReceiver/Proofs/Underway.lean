import CastReceiver.Proofs.Discipline
import Mathlib.Data.List.Forall2

/-!
# What is under way

While a command is carried out, the occurrence whose run has issued it is under way, and so are all
those whose runs wait below it. A regime says for each occurrence how the stretches of its run may
go. A turn belongs to one occurrence, and follows the regime for it (`turn_attended`); so what holds
may be made to depend on the occurrences that have happened, or on those that are under way.
-/
namespace CastReceiver

deriving instance DecidableEq for Occurrence, Turn

/-! ## Occurrences under way -/

/-- The occurrences under way during a turn, the one that the turn belongs to first. -/
def Turn.works (t : Turn) (os : List Occurrence) : List Occurrence :=
  match t with
  | .happen o => o :: os
  | .resume => os

namespace World

/-- The occurrences under way after a turn. The turn's own occurrence is, if a command of it is
being carried out. -/
def underway (w : World) (os : List Occurrence) (t : Turn) : List Occurrence :=
  if (w.turn t).1.isSome then t.works os else (t.works os).tail

/-- The occurrences under way after several turns. -/
def underways (w : World) (os : List Occurrence) : List Turn → List Occurrence
  | [] => os
  | t :: ts => (w.turn t).2.underways (w.underway os t) ts

end World

/-! ## Regimes -/

/-- A discipline for each occurrence. All of them look at the same and find the same good. -/
structure Regime (σ : Type) where
  view : Machine → σ
  /-- Where the first stretch of an occurrence sets out from. -/
  opened : Occurrence → Machine → σ
  good : σ → Prop
  allows : Occurrence → σ → Option Command → σ → Prop

namespace Regime

variable {σ : Type} (r : Regime σ)

/-- The discipline for an occurrence. -/
def under (o : Occurrence) : Discipline σ where
  view := r.view
  good := r.good
  allows := r.allows o

/-- Where the stretch of a turn sets out from. -/
def origin (w : World) : Turn → σ
  | .happen o => r.opened o w.machine
  | .resume => r.view w.machine

/-- Every operation follows the regime, under which nothing good is lost. -/
structure Governs : Prop where
  fresh (settings : SessionSettings) (nameSource : Option NameSource) :
    r.good (r.view (World.fresh settings nameSource).machine)
  runs (m : Machine) (o : Occurrence) (hm : r.good (r.view m)) (ho : o.Possible m) :
    (o.run m).Completes (r.under o) (r.opened o m)
  kept {o : Occurrence} {m : Machine} {c : Option Command} {t : σ} (hm : r.good (r.view m))
    (h : r.allows o (r.view m) c t) : r.good t
  keptOpened {o : Occurrence} {m : Machine} {c : Option Command} {t : σ} (hm : r.good (r.view m))
    (h : r.allows o (r.opened o m) c t) : r.good t

/-- A run that waits will follow the regime for its occurrence. -/
def Waits (o : Occurrence) (next : Machine → Run Reply) : Prop :=
  ∀ m, r.good (r.view m) → (next m).Completes (r.under o) (r.view m)

/-- The machine of a world is good, and the runs that wait are those of the occurrences under
way. -/
structure Attended (w : World) (os : List Occurrence) : Prop where
  good : r.good (r.view w.machine)
  waiting : List.Forall₂ r.Waits os w.waiting

variable {r} {w : World} {os : List Occurrence} {t : Turn} {ts : List Turn}

theorem attended_fresh (hr : r.Governs) (settings : SessionSettings)
    (nameSource : Option NameSource) : r.Attended (World.fresh settings nameSource) [] where
  good := hr.fresh settings nameSource
  waiting := .nil

/-- Nothing is under way between operations. -/
theorem Attended.eq_nil (h : r.Attended w os) (hover : w.waiting = []) : os = [] := by
  have hlength := h.waiting.length_eq
  rw [hover] at hlength
  exact List.eq_nil_of_length_eq_zero hlength

theorem pause_attended {run : Run Reply} {s : σ} {o : Occurrence}
    {waiting : List (Machine → Run Reply)} (hrun : run.Completes (r.under o) s)
    (hkept : ∀ c t, r.allows o s c t → r.good t) (hwaiting : List.Forall₂ r.Waits os waiting) :
    r.allows o s (run.pause waiting).1 (r.view (run.pause waiting).2.machine) ∧
      r.Attended (run.pause waiting).2
        (if (run.pause waiting).1.isSome then o :: os else os) := by
  cases run with
  | done m a => exact ⟨hrun, hkept none _ hrun, hwaiting⟩
  | issue m c next => exact ⟨hrun.1, hkept _ _ hrun.1, .cons hrun.2 hwaiting⟩

/-- A turn belongs to an occurrence and follows the regime for it. -/
theorem turn_attended (hr : r.Governs) (hw : r.Attended w os) (ht : w.Possible t) :
    r.Attended (w.turn t).2 (w.underway os t) ∧ ∃ o others, t.works os = o :: others ∧
      r.allows o (r.origin w t) (w.turn t).1 (r.view (w.turn t).2.machine) := by
  cases t with
  | happen o =>
    obtain ⟨hallows, hattended⟩ := pause_attended (hr.runs w.machine o hw.good ht)
      (fun _ _ h => hr.keptOpened hw.good h) hw.waiting
    exact ⟨hattended, o, os, rfl, hallows⟩
  | resume =>
    obtain ⟨m, waiting⟩ := w
    obtain ⟨hgood, hwaiting⟩ := hw
    cases hwaiting with
    | nil => cases ht
    | @cons o next os waiting hnext hwaiting =>
      obtain ⟨hallows, hattended⟩ := pause_attended (hnext m hgood)
        (fun _ _ h => hr.kept hgood h) hwaiting
      exact ⟨hattended, o, os, rfl, hallows⟩

/-- Every turn of a world that can be reached follows the regime for some occurrence. -/
theorem reachable_follows (hr : r.Governs) (hw : w.Reachable) (ht : w.Possible t) :
    ∃ o, r.allows o (r.origin w t) (w.turn t).1 (r.view (w.turn t).2.machine) := by
  have hattended : ∃ os, r.Attended w os := by
    clear ht
    induction hw with
    | fresh settings nameSource => exact ⟨[], attended_fresh hr settings nameSource⟩
    | @turn w _ t ht ih =>
      obtain ⟨os, hw⟩ := ih
      exact ⟨w.underway os t, (turn_attended hr hw ht).1⟩
  obtain ⟨os, hw⟩ := hattended
  obtain ⟨-, o, -, -, hallows⟩ := turn_attended hr hw ht
  exact ⟨o, hallows⟩

/-- Only occurrences of some kinds are under way if no others happen. -/
theorem forall_underway {P : Occurrence → Prop} (hos : ∀ o ∈ os, P o)
    (ht : ∀ o, t = .happen o → P o) (o : Occurrence) (ho : o ∈ t.works os) : P o := by
  cases t with
  | happen o' =>
    rcases List.mem_cons.1 ho with rfl | ho
    · exact ht o rfl
    · exact hos o ho
  | resume => exact hos o ho

/-- What every stretch keeps of some occurrences is kept as long as no others happen. -/
theorem turns_keep (hr : r.Governs) {P : Occurrence → Prop} {I : σ → Prop}
    (hopened : ∀ o m, r.opened o m = r.view m)
    (hI : ∀ o s c t, P o → r.good s → r.allows o s c t → I s → I t)
    (hw : r.Attended w os) (hos : ∀ o ∈ os, P o) (hts : w.AllPossible ts)
    (hP : ∀ o, .happen o ∈ ts → P o) (hs : I (r.view w.machine)) :
    I (r.view (w.turns ts).machine) := by
  induction ts generalizing w os with
  | nil => exact hs
  | cons t ts ih =>
    obtain ⟨hattended, o, others, hworks, hallows⟩ := turn_attended hr hw hts.1
    have hall := forall_underway hos fun o ho => hP o (ho ▸ List.mem_cons_self)
    have horigin : r.origin w t = r.view w.machine := by
      cases t with
      | happen o => exact hopened o w.machine
      | resume => rfl
    rw [horigin] at hallows
    refine ih hattended ?_ hts.2 (fun o ho => hP o (List.mem_cons_of_mem t ho)) ?_
    · intro o ho
      rw [World.underway] at ho
      split at ho
      · exact hall o ho
      · exact hall o (List.mem_of_mem_tail ho)
    · exact hI o _ _ _ (hall o (hworks ▸ List.mem_cons_self)) hw.good hallows hs

end Regime

end CastReceiver
