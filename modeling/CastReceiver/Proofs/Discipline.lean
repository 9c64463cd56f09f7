import CastReceiver.Proofs.World

/-!
# Disciplines

A discipline says how one stretch of work may change what it looks at in a machine, and what is
good to find there. A run obeys a discipline when each of its stretches does, whatever good machine
comes back from its commands. Since requests made during a command run under the same discipline,
it is enough to look at the operations one by one (`reachable_good`, `reachable_allows`).
-/
namespace CastReceiver

structure Discipline (σ : Type) where
  /-- What the discipline looks at. -/
  view : Machine → σ
  good : σ → Prop
  /-- How a stretch may go, up to the command at which it stops or to the end of its operation. -/
  allows : σ → Option Command → σ → Prop

namespace Run

variable {σ α β : Type} (d : Discipline σ)

/-- From `s` on, each stretch of a run is allowed, and the last one ends with `post`. -/
def Obeys (post : σ → Machine → α → Prop) : σ → Run α → Prop
  | s, .done m a => post s m a
  | s, .issue m c next =>
    d.allows s (some c) (d.view m) ∧
      ∀ m', d.good (d.view m') → (next m').Obeys post (d.view m')

/-- The last stretch of a run is allowed as well. -/
def Completes (s : σ) (r : Run α) : Prop :=
  r.Obeys d (fun s m _ => d.allows s none (d.view m)) s

variable {d}

@[simp] theorem obeys_done {post : σ → Machine → α → Prop} {s : σ} {m : Machine} {a : α} :
    (done m a).Obeys d post s ↔ post s m a := Iff.rfl

@[simp] theorem obeys_bind {post : σ → Machine → β → Prop} {s : σ} {r : Run α}
    {f : Machine → α → Run β} :
    (r.bind f).Obeys d post s ↔ r.Obeys d (fun s m a => (f m a).Obeys d post s) s := by
  induction r generalizing s with
  | done m a => rfl
  | issue m c next ih => simp only [bind_issue, Obeys, ih]

@[simp] theorem obeys_andThen {post : σ → Machine → β → Prop} {s : σ} {r : Run α}
    {f : Machine → Run β} :
    (r.andThen f).Obeys d post s ↔ r.Obeys d (fun s m _ => (f m).Obeys d post s) s :=
  obeys_bind

@[simp] theorem obeys_map {post : σ → Machine → β → Prop} {s : σ} {r : Run α} {f : α → β} :
    (r.map f).Obeys d post s ↔ r.Obeys d (fun s m a => post s m (f a)) s :=
  obeys_bind

@[simp] theorem obeys_returning {post : σ → Machine → β → Prop} {s : σ} {r : Run α} {b : β} :
    (r.returning b).Obeys d post s ↔ r.Obeys d (fun s m _ => post s m b) s :=
  obeys_bind

@[simp] theorem obeys_command {post : σ → Machine → Unit → Prop} {s : σ} {m : Machine}
    {c : Command} :
    (m.command c).Obeys d post s ↔ d.allows s (some c) (d.view (m.emit (.command c))) ∧
      ∀ m', d.good (d.view m') → post (d.view m') m' () := Iff.rfl

theorem Obeys.mono {post post' : σ → Machine → α → Prop} {s : σ} {r : Run α}
    (h : r.Obeys d post s) (hpost : ∀ s m a, post s m a → post' s m a) : r.Obeys d post' s := by
  induction r generalizing s with
  | done m a => exact hpost s m a h
  | issue m c next ih => exact ⟨h.1, fun m' hm' => ih m' (h.2 m' hm')⟩

@[simp] theorem completes_map {s : σ} {r : Run α} {f : α → β} :
    (r.map f).Completes d s ↔ r.Completes d s :=
  obeys_map

@[simp] theorem completes_returning {s : σ} {r : Run α} {b : β} :
    (r.returning b).Completes d s ↔ r.Completes d s :=
  obeys_returning

end Run

/-! ## Worlds under a discipline -/

namespace Discipline

variable {σ : Type} (d : Discipline σ)

/-- Where the stretch of a turn sets out from. What an occurrence does at its very beginning, before
anything else can be said about it, may be counted as done. -/
def origin (opened : Occurrence → Machine → σ) (w : World) : Turn → σ
  | .happen o => opened o w.machine
  | .resume => d.view w.machine

/-- Every operation obeys a discipline under which nothing good is lost. -/
structure Governs (opened : Occurrence → Machine → σ) : Prop where
  fresh (settings : SessionSettings) (nameSource : Option NameSource) :
    d.good (d.view (World.fresh settings nameSource).machine)
  runs (m : Machine) (o : Occurrence) (hm : d.good (d.view m)) (ho : o.Possible m) :
    (o.run m).Completes d (opened o m)
  kept {m : Machine} {c : Option Command} {t : σ} (hm : d.good (d.view m))
    (h : d.allows (d.view m) c t) : d.good t
  keptOpened {m : Machine} {o : Occurrence} {c : Option Command} {t : σ}
    (hm : d.good (d.view m)) (h : d.allows (opened o m) c t) : d.good t

/-- The machine of a world is good, and the runs that wait will obey. -/
structure Settled (w : World) : Prop where
  good : d.good (d.view w.machine)
  waiting : ∀ next ∈ w.waiting, ∀ m, d.good (d.view m) → (next m).Completes d (d.view m)

variable {d} {opened : Occurrence → Machine → σ} {w : World}

/-- A run that obeys stops in a world that is settled, after a stretch that is allowed. -/
theorem pause_settled {r : Run Reply} {s : σ} {waiting : List (Machine → Run Reply)}
    (hr : r.Completes d s) (hkept : ∀ c t, d.allows s c t → d.good t)
    (hwaiting : ∀ next ∈ waiting, ∀ m, d.good (d.view m) → (next m).Completes d (d.view m)) :
    d.allows s (r.pause waiting).1 (d.view (r.pause waiting).2.machine) ∧
      d.Settled (r.pause waiting).2 := by
  cases r with
  | done m a => exact ⟨hr, hkept none _ hr, hwaiting⟩
  | issue m c next =>
    refine ⟨hr.1, hkept _ _ hr.1, ?_⟩
    intro k hk
    rcases List.mem_cons.1 hk with rfl | hk
    · exact hr.2
    · exact hwaiting k hk

theorem turn_settled (hd : d.Governs opened) (hw : d.Settled w) {t : Turn}
    (ht : w.Possible t) :
    d.allows (d.origin opened w t) (w.turn t).1 (d.view (w.turn t).2.machine) ∧
      d.Settled (w.turn t).2 := by
  cases t with
  | happen o =>
    exact pause_settled (hd.runs _ o hw.good ht) (fun _ _ h => hd.keptOpened hw.good h)
      hw.waiting
  | resume =>
    rcases w with ⟨m, _ | ⟨next, waiting⟩⟩
    · cases ht
    · exact pause_settled (hw.waiting next (by simp) m hw.good) (fun _ _ h => hd.kept hw.good h)
        (fun k hk => hw.waiting k (by simp [hk]))

theorem reachable_settled (hd : d.Governs opened) (h : w.Reachable) : d.Settled w := by
  induction h with
  | fresh settings nameSource => exact ⟨hd.fresh settings nameSource, by simp [World.fresh]⟩
  | turn _ t ht ih => exact (turn_settled hd ih ht).2

/-- Between operations and whenever a command goes out, the machine is good. -/
theorem reachable_good (hd : d.Governs opened) (h : w.Reachable) : d.good (d.view w.machine) :=
  (reachable_settled hd h).good

/-- Every turn of a world that can be reached is allowed. -/
theorem reachable_allows (hd : d.Governs opened) (h : w.Reachable) {t : Turn}
    (ht : w.Possible t) :
    d.allows (d.origin opened w t) (w.turn t).1 (d.view (w.turn t).2.machine) :=
  (turn_settled hd (reachable_settled hd h) ht).1

end Discipline

end CastReceiver
