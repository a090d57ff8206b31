import Diorama.Proofs.Ticking

namespace Diorama.Session

open Timeline (timesOf)

variable {σ : Type} [Surface σ] {surface : σ} {s s' s'' : Session σ} {id : String} {f : Firing} {fs gs : List Firing}
  {n limit : Nat} {task : Task} {ds : List Duration}

theorem acted_passed {id : String} {action : TaskAction} :
    (s.acted id action).passed limit = (s.passed limit).acted id action := by
  cases action <;> rfl

theorem fire_passed (sound : s.Sound) : (s.fire f).passed limit = (s.passed limit).fire f := by
  have later : (s.passed limit).Sound := sound.happens (.pass limit)
  cases live : s.timeline.tasks[f.task]? with
  | none =>
    have still : (s.passed limit).timeline.tasks[f.task]? = none :=
      Timeline.tasks_advance.trans (congrArg (Option.map _) live)
    rw [fire_dead live, fire_dead still]
  | some task =>
    have moved : (s.passed limit).timeline.tasks[f.task]? = some (task.after limit s.timeline.maxCatchUp) :=
      Timeline.live_advance live
    by_cases present : task.slot.shape ∈ s.shapes
    · rw [fire_acted sound live present, fire_acted later moved present]
      exact acted_passed
    · rw [fire_orphan live present, fire_orphan moved present]
      exact congrArg s.timed Timeline.advance_cancel

theorem Standing.fired_passed (standing : s.Standing) : (s.fired fs).passed limit = (s.passed limit).fired fs := by
  induction fs generalizing s with
  | nil => rfl
  | cons f fs ih =>
    refine (ih (standing.happens (.fire f))).trans ?_
    rw [fire_passed standing.sound]
    rfl

theorem Standing.fired_filter {t : Timeline} (standing : s.Standing)
    (active : ∀ n task, s.timeline.tasks[n]? = some task → t.isActive n = true) :
    s.fired (fs.filter fun f => t.isActive f.task) = s.fired fs := by
  induction fs generalizing s with
  | nil => rfl
  | cons f fs ih =>
    by_cases kept : t.isActive f.task = true
    · rw [List.filter_cons_of_pos (p := fun f : Firing => t.isActive f.task) kept]
      refine ih (standing.happens (.fire f)) fun n task live => ?_
      exact active n task ((fire_pruned standing.sound (.refl _) f).fewer n task live)
    · have dead : s.timeline.tasks[f.task]? = none := by
        by_contra live
        obtain ⟨task, found⟩ := Option.ne_none_iff_exists'.mp live
        exact kept (active f.task task found)
      rw [List.filter_cons_of_neg (p := fun f : Firing => t.isActive f.task) kept, ih standing active]
      exact congrArg (Session.fired fs) (fire_dead dead).symm

theorem Standing.advance (standing : s.Standing) (d : Duration) : (s.advance d).Standing :=
  (standing.passed _).fired _

theorem advance_short {d : Nat} (short : s.timeline.now + d < Duration.longest) : s.advance d =
    (s.passed (s.timeline.now + d)).fired (s.timeline.advance (s.timeline.now + d)).1 := by
  rw [advance_eq, Duration.plus_short short]

theorem Standing.now_advance {d : Nat} (standing : s.Standing) (short : s.timeline.now + d < Duration.longest) :
    (s.advance d).timeline.now = s.timeline.now + d :=
  ((standing.passed _).fired_pruned _).now.trans (Duration.plus_short short)

theorem Standing.advance_advance {d d' : Nat} (standing : s.Standing)
    (short : s.timeline.now + d + d' < Duration.longest) (uncapped : s.timeline.Uncapped (s.timeline.now + d + d')) :
    (s.advance d).advance d' = s.advance (d + d') := by
  have order : s.timeline.now + d ≤ s.timeline.now + d + d' := Nat.le_add_right _ _
  have half : s.timeline.now + d < Duration.longest := Nat.lt_of_le_of_lt order short
  have first := advance_short half
  have second : (s.advance d).advance d' = ((s.advance d).passed (s.timeline.now + d + d')).fired
      ((s.advance d).timeline.advance (s.timeline.now + d + d')).1 := by
    have clock := standing.now_advance half
    rw [advance_short (clock ▸ short), clock]
  have whole : s.advance (d + d') = (s.passed (s.timeline.now + d + d')).fired
      (s.timeline.advance (s.timeline.now + d + d')).1 := by
    rw [advance_short ((Nat.add_assoc _ d d').symm ▸ short), Nat.add_assoc]
  generalize s.timeline.now + d + d' = limit at *
  generalize s.timeline.now + d = mid at *
  have split := standing.consistent.advance_split short uncapped order
  have again := standing.consistent.advance_advance short uncapped order
  have rest := standing.consistent.uncapped_advance short uncapped order
  have start := standing.passed mid
  have later := standing.advance d
  have pruned : (s.passed mid).timeline.Pruned (s.advance d).timeline := by
    rw [first]
    exact start.fired_pruned _
  calc (s.advance d).advance d'
    _ = ((s.advance d).passed limit).fired ((s.advance d).timeline.advance limit).1 := second
    _ = ((s.advance d).passed limit).fired ((s.passed mid).timeline.advance limit).1 := by
      rw [start.consistent.advance_pruned short rest later.consistent pruned]
      refine (later.passed limit).fired_filter fun n task live => ?_
      obtain ⟨before, there, _⟩ := Timeline.live_of_advance live
      exact Timeline.isActive_iff.mpr ⟨before, there⟩
    _ = (((s.passed mid).passed limit).fired (s.timeline.advance mid).1).fired
        ((s.passed mid).timeline.advance limit).1 := by
      rw [first, start.fired_passed]
    _ = (s.passed limit).fired ((s.timeline.advance mid).1 ++ ((s.passed mid).timeline.advance limit).1) := by
      rw [show (s.passed mid).passed limit = s.passed limit from congrArg s.timed again]
      exact List.foldl_append.symm
    _ = s.advance (d + d') := by
      rw [whole, split]
      rfl

-- The firings of a list are carried out, each on what those before it have left. Apart from that the clock may move,
-- and a task without a shape may be dropped.
inductive Plays : Session σ → List Firing → Session σ → Prop where
  | rest (s : Session σ) : Plays s [] s
  | pass {s s' : Session σ} {fs : List Firing} (limit : Duration) : Plays (s.passed limit) fs s' → Plays s fs s'
  | drop {s s' : Session σ} {fs : List Firing} {n : Nat} {task : Task} : s.timeline.tasks[n]? = some task →
      task.slot.shape ∉ s.shapes → Plays (s.cancelTask n) fs s' → Plays s fs s'
  | act {s mid s' : Session σ} {f : Firing} {fs : List Firing} {task : Task} : s.timeline.tasks[f.task]? = some task →
      act Machine.redraw task.slot.shape task.action s = .ok () mid → Plays mid fs s' → Plays s (f :: fs) s'

theorem Plays.append (first : s.Plays fs s') (later : s'.Plays gs s'') : s.Plays (fs ++ gs) s'' := by
  induction first with
  | rest s => exact later
  | pass limit _ ih => exact .pass limit (ih later)
  | drop live absent _ ih => exact .drop live absent (ih later)
  | act live acted _ ih => exact .act live acted (ih later)

theorem Plays.record (plays : s.Plays fs s') (sound : s.Sound) :
    s'.shapes[id]? = s.shapes[id]?.map fun shape => shape.after (s.timeline.actionsOn id fs) := by
  induction plays with
  | rest s => simp [Timeline.actionsOn, Shape.after_nil]
  | @pass s s' fs limit _ ih =>
    have kept : (s.passed limit).timeline.actionsOn id fs = s.timeline.actionsOn id fs := Timeline.actionsOn_advance
    rw [ih (sound.happens (.pass limit)), kept]
    rfl
  | @drop s s' fs n task live absent _ ih =>
    -- any firing of the task would drop it
    have fires : s.fire ⟨0, n⟩ = s.cancelTask n := fire_orphan live absent
    have rest := ih (fires ▸ sound.happens (.fire ⟨0, n⟩))
    rw [rest]
    apply Option.map_congr
    intro shape found
    have kept : (s.fire ⟨0, n⟩).timeline.actionsOn id fs = s.timeline.actionsOn id fs :=
      fire_actionsOn sound (Registry.mem_of_found found) ⟨0, n⟩
    rw [← kept, fires]
  | @act s mid s' f fs task live acted _ ih =>
    have fires : s.fire f = mid := by simp only [fire, live, acted]
    subst fires
    exact record_fire sound (ih (sound.happens (.fire f)))

def acts (f : Firing) (s : Session σ) : Bool :=
  s.timeline.tasks[f.task]?.any fun task => s.shapes.contains task.slot.shape

omit [Surface σ] in
theorem acts_iff : s.acts f = true ↔ ∃ task, s.timeline.tasks[f.task]? = some task ∧ task.slot.shape ∈ s.shapes := by
  simp [acts, Option.any_eq_true]

def acting : List Firing → Session σ → List Firing
  | [], _ => []
  | f :: fs, s => if s.acts f then f :: (s.fire f).acting fs else (s.fire f).acting fs

theorem fire_plays (sound : s.Sound) (rest : (s.fire f).Plays fs s') :
    s.Plays (if s.acts f then f :: fs else fs) s' := by
  obtain ⟨dead, same⟩ | ⟨task, live, ⟨absent, same⟩ | ⟨present, same⟩⟩ := fire_cases sound f
  · have idle : ¬s.acts f = true := by simp [acts, dead]
    rw [if_neg idle, ← same]
    exact rest
  · have idle : ¬s.acts f = true := by simp [acts, live, absent]
    rw [if_neg idle]
    exact .drop live absent (same ▸ rest)
  · rw [if_pos (acts_iff.mpr ⟨task, live, present⟩)]
    exact .act live ((act_ok sound present).trans (congrArg _ same.symm)) rest

theorem Standing.fired_plays (standing : s.Standing) : s.Plays (s.acting fs) (s.fired fs) := by
  induction fs generalizing s with
  | nil => exact .rest s
  | cons f fs ih => exact fire_plays standing.sound (ih (standing.happens (.fire f)))

theorem timesOf_acting_cons : timesOf n (s.acting (f :: fs)) =
    if s.acts f = true ∧ f.task = n then f.time :: timesOf n ((s.fire f).acting fs)
    else timesOf n ((s.fire f).acting fs) := by
  by_cases acts : s.acts f = true <;> simp [acting, acts, Timeline.timesOf_cons]

-- What is carried out while some spans of time pass one after the other.
def log : List Duration → Session σ → List Firing
  | [], _ => []
  | d :: ds, s =>
    (s.passed (s.timeline.now.plus d)).acting (s.timeline.advance (s.timeline.now.plus d)).1 ++ (s.advance d).log ds

def advanced (ds : List Duration) (s : Session σ) : Session σ := ds.foldl (fun s d => s.advance d) s

theorem Standing.log_plays (standing : s.Standing) (ds : List Duration) : s.Plays (s.log ds) (s.advanced ds) := by
  induction ds generalizing s with
  | nil => exact .rest s
  | cons d ds ih =>
    have first : s.Plays _ (s.advance d) := .pass _ (standing.passed _).fired_plays
    exact first.append (ih (standing.advance d))

def UncappedAlong : List Duration → Session σ → Prop
  | [], _ => True
  | d :: ds, s => s.timeline.Uncapped (s.timeline.now + d) ∧ (s.advance d).UncappedAlong ds

theorem Standing.uncapped_advance {d : Nat} (standing : s.Standing) (order : s.timeline.now + d ≤ limit)
    (short : limit < Duration.longest) (uncapped : s.timeline.Uncapped limit) :
    (s.advance d).timeline.Uncapped limit := by
  have rest := standing.consistent.uncapped_advance short uncapped order
  rw [advance_short (Nat.lt_of_le_of_lt order short)]
  exact rest.pruned ((standing.passed _).fired_pruned _) (Nat.le_refl limit)

theorem Standing.uncappedAlong (standing : s.Standing) (short : s.timeline.now + ds.sum < Duration.longest)
    (uncapped : s.timeline.Uncapped (s.timeline.now + ds.sum)) : s.UncappedAlong ds := by
  induction ds generalizing s with
  | nil => trivial
  | cons d ds ih =>
    rw [List.sum_cons, ← Nat.add_assoc] at short uncapped
    have order : s.timeline.now + d ≤ s.timeline.now + d + ds.sum := Nat.le_add_right _ _
    have clock := standing.now_advance (Nat.lt_of_le_of_lt order short)
    refine ⟨uncapped.pruned (.refl _) order, ih (standing.advance d) (clock ▸ short) ?_⟩
    rw [clock]
    exact standing.uncapped_advance order short uncapped

theorem Standing.fired_live (standing : s.Standing) (live : s.timeline.tasks[n]? = some task)
    (present : task.slot.shape ∈ s.shapes) (fs : List Firing) :
    (s.fired fs).timeline.tasks[n]? = some task ∧ task.slot.shape ∈ (s.fired fs).shapes := by
  refine standing.fired_keeps (I := fun s => s.timeline.tasks[n]? = some task ∧ task.slot.shape ∈ s.shapes)
    ?_ ⟨live, present⟩ fs
  rintro s f standing ⟨live, present⟩
  exact ⟨fire_live standing.sound live present f, (fire_shapes standing.sound f).mpr present⟩

theorem Standing.timesOf_acting (standing : s.Standing) (live : s.timeline.tasks[n]? = some task)
    (present : task.slot.shape ∈ s.shapes) : timesOf n (s.acting fs) = timesOf n fs := by
  induction fs generalizing s with
  | nil => rfl
  | cons f fs ih =>
    have rest := ih (standing.happens (.fire f)) (fire_live standing.sound live present f)
      ((fire_shapes standing.sound f).mpr present)
    have acts (own : f.task = n) : s.acts f = true := acts_iff.mpr ⟨task, own ▸ live, present⟩
    simp only [timesOf_acting_cons, Timeline.timesOf_cons, rest, and_iff_right_of_imp acts]

theorem Standing.times_log (standing : s.Standing) (live : s.timeline.tasks[n]? = some task)
    (present : task.slot.shape ∈ s.shapes) (ahead : s.timeline.now < task.next)
    (short : s.timeline.now + ds.sum < Duration.longest) (uncapped : s.UncappedAlong ds) :
    (timesOf n (s.log ds)).Pairwise (· < ·) ∧
    ∀ time, time ∈ timesOf n (s.log ds) ↔ time ≤ s.timeline.now + ds.sum ∧ task.Due time := by
  -- by induction on the steps: the first fires what was due up to its end, and leaves the rest due
  induction ds generalizing s task with
  | nil =>
    refine ⟨.nil, fun time => ⟨nofun, ?_⟩⟩
    rintro ⟨within, k, rfl⟩
    exact absurd ahead (Nat.not_lt.mpr ((Nat.le_add_right _ _).trans within))
  | cons d ds ih =>
    obtain ⟨here, after⟩ := uncapped
    rw [List.sum_cons, ← Nat.add_assoc] at short ⊢
    have order : s.timeline.now + d ≤ s.timeline.now + d + ds.sum := Nat.le_add_right _ _
    have half := Nat.lt_of_le_of_lt order short
    have clock := standing.now_advance half
    have room := standing.consistent.room here live
    have start := standing.passed (s.timeline.now + d)
    have moved : (s.passed (s.timeline.now + d)).timeline.tasks[n]? = _ := Timeline.live_advance live
    obtain ⟨still, there⟩ := start.fired_live moved present (s.timeline.advance (s.timeline.now + d)).1
    rw [← advance_short half] at still there
    have rest := ih (standing.advance d) still there (clock ▸ (Task.fire_next half room).2) (clock ▸ short) after
    rw [clock] at rest
    have split : timesOf n (s.log (d :: ds)) =
        timesOf n (s.timeline.advance (s.timeline.now + d)).1 ++ timesOf n ((s.advance d).log ds) := by
      rw [log, Duration.plus_short half, Timeline.timesOf_append, start.timesOf_acting moved present]
    have first (time : Nat) : time ∈ timesOf n (s.timeline.advance (s.timeline.now + d)).1 ↔
        time ≤ s.timeline.now + d ∧ task.Due time :=
      standing.consistent.mem_timesOf_advance half here live
    have second (time : Nat) : time ∈ timesOf n ((s.advance d).log ds) ↔
        time ≤ s.timeline.now + d + ds.sum ∧ s.timeline.now + d < time ∧ task.Due time := by
      rw [rest.2]
      exact and_congr_right fun within => Task.due_fire half room (Nat.lt_of_le_of_lt within short)
    rw [split]
    constructor
    · refine List.pairwise_append.mpr ⟨(standing.consistent.ordered_advance half).ascending_timesOf, rest.1, ?_⟩
      intro early isEarly late isLate
      exact Nat.lt_of_le_of_lt ((first early).mp isEarly).1 ((second late).mp isLate).2.1
    · intro time
      rw [List.mem_append, first, second]
      constructor
      · rintro (⟨within, due⟩ | ⟨within, _, due⟩)
        · exact ⟨Nat.le_trans within order, due⟩
        · exact ⟨within, due⟩
      · rintro ⟨within, due⟩
        rcases Nat.lt_or_ge (s.timeline.now + d) time with after | before
        · exact .inr ⟨within, after, due⟩
        · exact .inl ⟨before, due⟩

def Idle (n : Nat) (s : Session σ) : Prop := ∀ task, s.timeline.tasks[n]? = some task → task.slot.shape ∉ s.shapes

theorem Idle.fire (sound : s.Sound) (idle : s.Idle n) (f : Firing) : (s.fire f).Idle n := by
  intro task live present
  exact idle task ((fire_pruned sound (.refl _) f).fewer n task live) ((fire_shapes sound f).mp present)

omit [Surface σ] in
theorem Idle.passed (idle : s.Idle n) (limit : Duration) : (s.passed limit).Idle n := by
  intro task live
  obtain ⟨before, there, rfl⟩ := Timeline.live_of_advance live
  exact idle before there

theorem Standing.advance_idle (standing : s.Standing) (idle : s.Idle n) (d : Duration) : (s.advance d).Idle n :=
  (standing.passed _).fired_keeps (fun _ f standing idle => idle.fire standing.sound f) (idle.passed _) _

theorem Standing.acting_idle (standing : s.Standing) (idle : s.Idle n) : timesOf n (s.acting fs) = [] := by
  induction fs generalizing s with
  | nil => rfl
  | cons f fs ih =>
    have rest := ih (standing.happens (.fire f)) (idle.fire standing.sound f)
    have apart : ¬(s.acts f = true ∧ f.task = n) := by
      rintro ⟨acts, rfl⟩
      obtain ⟨task, live, present⟩ := acts_iff.mp acts
      exact idle task live present
    rw [timesOf_acting_cons, if_neg apart, rest]

theorem Standing.log_idle (standing : s.Standing) (idle : s.Idle n) : timesOf n (s.log ds) = [] := by
  induction ds generalizing s with
  | nil => rfl
  | cons d ds ih =>
    rw [log, Timeline.timesOf_append, (standing.passed _).acting_idle (idle.passed _),
      ih (standing.advance d) (standing.advance_idle idle d)]
    rfl

-- Two steps are as good as one. Whatever the steps, their log is what is carried out in them, and in it a task that has
-- just been started stands once at each whole number of intervals from now, if its shape is there, and else never.
theorem advance_slicing (reached : Reachable surface s) :
    (∀ d d' : Duration, s.timeline.now + d + d' < Duration.longest →
      s.timeline.Uncapped (s.timeline.now + d + d') → (s.advance d).advance d' = s.advance (d + d')) ∧
    (∀ ds : List Duration, s.Plays (s.log ds) (s.advanced ds) ∧ ∀ id : String,
      (s.advanced ds).shapes[id]? = s.shapes[id]?.map fun shape => shape.after (s.timeline.actionsOn id (s.log ds))) ∧
    ∀ (ds : List Duration) (n : Nat) (task : Task), s.timeline.now + ds.sum < Duration.longest →
      s.UncappedAlong ds → s.timeline.tasks[n]? = some task →
      task.next = s.timeline.now.plus task.interval →
      (timesOf n (s.log ds)).Pairwise (· < ·) ∧
      ∀ time, time ∈ timesOf n (s.log ds) ↔ task.slot.shape ∈ s.shapes ∧ time ≤ s.timeline.now + ds.sum ∧
        ∃ k, time = s.timeline.now + (k + 1) * task.interval := by
  have standing : s.Standing := ⟨reached.sound, reached.mirrored.1⟩
  refine ⟨fun d d' => standing.advance_advance, fun ds => ?_, fun ds n task short uncapped live started => ?_⟩
  · have plays := standing.log_plays ds
    exact ⟨plays, fun id => plays.record standing.sound⟩
  by_cases present : task.slot.shape ∈ s.shapes
  · have ahead : s.timeline.now < task.next := by
      rw [started]
      exact Nat.lt_min.mpr ⟨Nat.lt_add_of_pos_right (standing.consistent.interval_pos live),
        Nat.lt_of_le_of_lt (Nat.le_add_right _ _) short⟩
    obtain ⟨ascending, times⟩ := standing.times_log live present ahead short uncapped
    refine ⟨ascending, fun time => ?_⟩
    rw [times, and_iff_right present]
    refine and_congr_right fun within => ?_
    rw [Task.Due, started]
    exact Task.plus_due (Nat.lt_of_le_of_lt within short)
  · have idle : s.Idle n := by
      intro task' live'
      cases live.symm.trans live'
      exact present
    rw [standing.log_idle idle]
    exact ⟨.nil, fun time => ⟨nofun, fun there => absurd there.1 present⟩⟩

theorem advance_slicing_beat : Reachable Scene.initial Sample.beatSession ∧
    Sample.beatSession.timeline.Uncapped (Sample.beatSession.timeline.now + 300000000 + 700000000) ∧
    (Sample.beatSession.advance 300000000).advance 700000000 = Sample.beatSession.advance 1000000000 ∧
    Sample.beatSession.Plays (Sample.beatSession.log [300000000, 0, 700000000])
      (Sample.beatSession.advanced [300000000, 0, 700000000]) ∧
    (Sample.beatSession.advanced [300000000, 0, 700000000]).shapes["a"]? = Sample.beatSession.shapes["a"]?.map
      (·.after (Sample.beatSession.timeline.actionsOn "a" (Sample.beatSession.log [300000000, 0, 700000000]))) ∧
    Sample.beatSession.UncappedAlong [300000000, 0, 700000000] ∧
    ∃ task : Task, Sample.beatSession.timeline.tasks[1]? = some task ∧ task.interval = 200000000 ∧
      task.next = Sample.beatSession.timeline.now.plus task.interval ∧
      (timesOf 1 (Sample.beatSession.log [300000000, 0, 700000000])).Pairwise (· < ·) ∧
      ∀ time, time ∈ timesOf 1 (Sample.beatSession.log [300000000, 0, 700000000]) ↔
        task.slot.shape ∈ Sample.beatSession.shapes ∧
        time ≤ Sample.beatSession.timeline.now + [300000000, 0, 700000000].sum ∧
        ∃ k, time = Sample.beatSession.timeline.now + (k + 1) * task.interval := by
  have reached := Sample.beat_reachable
  have whole : Sample.beatSession.timeline.Uncapped (Sample.beatSession.timeline.now + 300000000 + 700000000) :=
    Timeline.uncapped_of_room (by decide +kernel)
  have along : Sample.beatSession.UncappedAlong [300000000, 0, 700000000] :=
    Standing.uncappedAlong ⟨reached.sound, reached.mirrored.1⟩ (by decide +kernel)
      (Timeline.uncapped_of_room (by decide +kernel))
  have running : Sample.beatSession.timeline.tasks[1]?.map (fun task => (task.interval, task.next)) =
      some (200000000, 200000000) := by decide +kernel
  obtain ⟨task, live, pace⟩ := Option.map_eq_some_iff.mp running
  obtain ⟨interval, next⟩ := Prod.mk.inj pace
  have started : task.next = Sample.beatSession.timeline.now.plus task.interval := by
    rw [interval, next]
    decide +kernel
  obtain ⟨slices, played, times⟩ := advance_slicing reached
  obtain ⟨plays, records⟩ := played [300000000, 0, 700000000]
  exact ⟨reached, whole, slices 300000000 700000000 (by decide +kernel) whole, plays, records "a", along, task, live,
    interval, started, times _ 1 task (by decide +kernel) along live started⟩

end Diorama.Session
