import CastReceiver.Proofs.Stops

/-!
# Upkeep

A machine may be untidy while a command is carried out, as long as the run that has issued the
command tidies up before it is over. Requests that are made meanwhile find an untidy machine and may
leave one; but whatever comes back to a run, at its end all is tidy again. So between operations,
when no run waits for a command, a machine is tidy (`reachable_tidy`).
-/
namespace CastReceiver

structure Upkeep where
  /-- What holds at all times. -/
  sound : Machine → Prop
  /-- What may become of a machine while time passes. -/
  ensues : Machine → Machine → Prop
  /-- What holds between operations. -/
  tidy : Machine → Prop
  refl {m : Machine} (hm : sound m) : ensues m m
  trans {m m' m'' : Machine} (h : ensues m m') (h' : ensues m' m'') : ensues m m''

namespace Upkeep

variable (u : Upkeep)

/-- What one stretch of work does to a machine. -/
structure Step (m m' : Machine) : Prop where
  sound : u.sound m'
  ensues : u.ensues m m'
  tidy : u.tidy m → u.tidy m'

/-- A stretch of work after which a machine is tidy, whatever it was before. -/
structure Mends (m m' : Machine) : Prop where
  sound : u.sound m'
  ensues : u.ensues m m'
  tidy : u.tidy m'

variable {u} {m m' m'' : Machine}

theorem Step.refl (hm : u.sound m) : u.Step m m := ⟨hm, u.refl hm, id⟩

theorem Step.trans (h : u.Step m m') (h' : u.Step m' m'') : u.Step m m'' :=
  ⟨h'.sound, u.trans h.ensues h'.ensues, fun hm => h'.tidy (h.tidy hm)⟩

theorem Mends.step (h : u.Mends m m') : u.Step m m' := ⟨h.sound, h.ensues, fun _ => h.tidy⟩

end Upkeep

namespace Run

variable {α β : Type} (u : Upkeep)

/-- A run ends tidily, whatever comes back from its commands. -/
def Tidies : Run α → Prop
  | .done m _ => u.tidy m
  | .issue m _ next =>
    u.tidy m ∨ ∀ m', u.sound m' → u.ensues m m' → (next m').Tidies

/-- A run that sets out from `s` leaves nothing untidy at its end that was tidy. -/
def Keeps : Machine → Run α → Prop
  | s, .done m _ => u.Step s m
  | s, .issue m c next =>
    u.sound m ∧ u.ensues s m ∧ (u.tidy s → (issue m c next).Tidies u) ∧
      ∀ m', u.sound m' → u.ensues m m' → (next m').Keeps m'

variable {u} {s : Machine} {r : Run α} {f : Machine → α → Run β}

theorem Brief.keeps (h : r.Brief (u.Step s)) : r.Keeps u s := by
  cases r with
  | done m a => exact h
  | issue m c next =>
    obtain ⟨hm, a, hnext⟩ := h
    refine ⟨hm.sound, hm.ensues, fun hs => .inl (hm.tidy hs), fun m' hm' _ => ?_⟩
    rw [hnext]
    exact .refl hm'

theorem Brief.tidies (h : r.Brief u.tidy) : r.Tidies u := by
  cases r with
  | done m a => exact h
  | issue m c next => exact .inl h.1

/-- A run that goes on after a command goes on with whatever comes back. -/
theorem keeps_bind (hr : r.Brief (u.Step s))
    (hf : ∀ m a, u.sound m → u.ensues s m → (f m a).Brief (u.Step m)) :
    (r.bind f).Keeps u s := by
  cases r with
  | done m a => exact ((hf m a hr.sound hr.ensues).mono fun _ => hr.trans).keeps
  | issue m c next =>
    obtain ⟨hm, a, hnext⟩ := hr
    refine ⟨hm.sound, hm.ensues, fun hs => .inl (hm.tidy hs), fun m' hm' hensues => ?_⟩
    show ((next m').bind f).Keeps u m'
    rw [hnext]
    exact (hf m' a hm' (u.trans hm.ensues hensues)).keeps

/-- A run may issue a command from an untidy machine if it mends whatever comes back. -/
theorem keeps_bind_of_mends (hr : r.Brief fun m => u.sound m ∧ u.ensues s m)
    (hf : ∀ m a, u.sound m → u.ensues s m → (f m a).Brief (u.Mends m)) :
    (r.bind f).Keeps u s := by
  cases r with
  | done m a =>
    have hmends := hf m a hr.1 hr.2
    exact (hmends.mono fun _ h => ⟨h.sound, u.trans hr.2 h.ensues, fun _ => h.tidy⟩).keeps
  | issue m c next =>
    obtain ⟨⟨hsound, hensues⟩, a, hnext⟩ := hr
    have hmends : ∀ m', u.sound m' → u.ensues m m' → ((next m').bind f).Brief (u.Mends m') := by
      intro m' hm' hlater
      rw [hnext]
      exact hf m' a hm' (u.trans hensues hlater)
    refine ⟨hsound, hensues, fun _ => .inr fun m' hm' hlater => ?_, fun m' hm' hlater => ?_⟩
    · exact ((hmends m' hm' hlater).mono fun _ h => h.tidy).tidies
    · exact ((hmends m' hm' hlater).mono fun _ h => h.step).keeps

end Run

/-! ## Worlds that are kept up -/

namespace Upkeep

variable (u : Upkeep)

/-- The machine of a world is tidy, or a run that waits will tidy it. -/
structure Upheld (w : World) : Prop where
  sound : u.sound w.machine
  waiting : ∀ next ∈ w.waiting, ∀ m, u.sound m → u.ensues w.machine m → (next m).Keeps u m
  tidy : u.tidy w.machine ∨ ∃ next ∈ w.waiting, ∀ m, u.sound m → u.ensues w.machine m →
    (next m).Tidies u

/-- Every operation leaves a tidy machine behind where it has found one. -/
structure Governs : Prop where
  fresh (settings : SessionSettings) (nameSource : Option NameSource) :
    u.sound (World.fresh settings nameSource).machine ∧
      u.tidy (World.fresh settings nameSource).machine
  runs (m : Machine) (o : Occurrence) (hm : u.sound m) (ho : o.Possible m) : (o.run m).Keeps u m

variable {u} {w : World}

/-- A run that is kept up stops in a world that is, if something is done about what is untidy. -/
theorem pause_upheld {r : Run Reply} {s : Machine} {waiting : List (Machine → Run Reply)}
    (hr : r.Keeps u s)
    (hwaiting : ∀ next ∈ waiting, ∀ m, u.sound m → u.ensues s m → (next m).Keeps u m)
    (htidy : u.tidy s ∨ r.Tidies u ∨ ∃ next ∈ waiting, ∀ m, u.sound m → u.ensues s m →
      (next m).Tidies u) : u.Upheld (r.pause waiting).2 := by
  cases r with
  | done m a =>
    refine ⟨hr.sound, fun k hk m' hm' h => hwaiting k hk m' hm' (u.trans hr.ensues h), ?_⟩
    rcases htidy with hs | hm | ⟨k, hk, htidies⟩
    · exact .inl (hr.tidy hs)
    · exact .inl hm
    · exact .inr ⟨k, hk, fun m' hm' h => htidies m' hm' (u.trans hr.ensues h)⟩
  | issue m c next =>
    obtain ⟨hsound, hensues, htidies, hnext⟩ := hr
    refine ⟨hsound, fun k hk m' hm' h => ?_, ?_⟩
    · rcases List.mem_cons.1 hk with rfl | hk
      · exact hnext m' hm' h
      · exact hwaiting k hk m' hm' (u.trans hensues h)
    · have hopen : (Run.issue m c next).Tidies u ∨ ∃ k ∈ waiting, ∀ m', u.sound m' →
          u.ensues s m' → (k m').Tidies u := by
        rcases htidy with hs | hr | hk
        · exact .inl (htidies hs)
        · exact .inl hr
        · exact .inr hk
      rcases hopen with (hm | hmends) | ⟨k, hk, hmends⟩
      · exact .inl hm
      · exact .inr ⟨next, List.mem_cons_self, hmends⟩
      · exact .inr ⟨k, List.mem_cons_of_mem _ hk,
          fun m' hm' h => hmends m' hm' (u.trans hensues h)⟩

theorem turn_upheld (hu : u.Governs) (hw : u.Upheld w) {t : Turn} (ht : w.Possible t) :
    u.Upheld (w.turn t).2 := by
  cases t with
  | happen o => exact pause_upheld (hu.runs _ o hw.sound ht) hw.waiting (hw.tidy.imp_right .inr)
  | resume =>
    rcases w with ⟨m, _ | ⟨next, waiting⟩⟩
    · cases ht
    · have hrefl := u.refl hw.sound
      apply pause_upheld (hw.waiting next List.mem_cons_self m hw.sound hrefl)
      · exact fun k hk => hw.waiting k (List.mem_cons_of_mem _ hk)
      · rcases hw.tidy with hm | ⟨k, hk, hmends⟩
        · exact .inl hm
        · rcases List.mem_cons.1 hk with rfl | hk
          · exact .inr (.inl (hmends m hw.sound hrefl))
          · exact .inr (.inr ⟨k, hk, hmends⟩)

theorem reachable_upheld (hu : u.Governs) (h : w.Reachable) : u.Upheld w := by
  induction h with
  | fresh settings nameSource =>
    obtain ⟨hsound, htidy⟩ := hu.fresh settings nameSource
    exact ⟨hsound, nofun, .inl htidy⟩
  | turn _ t ht ih => exact turn_upheld hu ih ht

theorem pause_ensues {r : Run Reply} {s : Machine} (hr : r.Keeps u s)
    (waiting : List (Machine → Run Reply)) : u.ensues s (r.pause waiting).2.machine := by
  cases r with
  | done m a => exact hr.ensues
  | issue m c next => exact hr.2.1

/-- What a turn makes of a machine is what may become of it while time passes. -/
theorem turn_ensues (hu : u.Governs) (hw : w.Reachable) {t : Turn} (ht : w.Possible t) :
    u.ensues w.machine (w.turn t).2.machine := by
  have hupheld := reachable_upheld hu hw
  cases t with
  | happen o => exact pause_ensues (hu.runs _ o hupheld.sound ht) _
  | resume =>
    rcases w with ⟨m, _ | ⟨next, waiting⟩⟩
    · cases ht
    · have hkeeps := hupheld.waiting next List.mem_cons_self m hupheld.sound
      exact pause_ensues (hkeeps (u.refl hupheld.sound)) waiting

/-- Between operations a machine is tidy. -/
theorem reachable_tidy (hu : u.Governs) (h : w.Reachable) (hover : w.waiting = []) :
    u.sound w.machine ∧ u.tidy w.machine := by
  obtain ⟨hsound, -, htidy⟩ := reachable_upheld hu h
  rcases htidy with hm | ⟨k, hk, -⟩
  · exact ⟨hsound, hm⟩
  · rw [hover] at hk
    exact nomatch hk

end Upkeep

end CastReceiver
