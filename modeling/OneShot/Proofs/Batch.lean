/-
# OneShot.Proofs.Batch -- handles that are let go together

Two things let go of many handles at once: the call that has ended a sink, when its loop over
the registry is over, and the last reference to a sink that has not ended.  Either goes
through its list from front to back and drops just those handles that nothing else owns
(`Store.letGo_drops`), so that the order of the list is kept.

What else may own a handle is a parked value, or a call in progress that works on it
(`Machine.free`); in an open registry no value is parked.  A step takes no reference to a sink
but the one that its task is (`Machine.referenced_step`), so the last one goes with a task that
gives the sink up.
-/
import OneShot.Proofs.Loop
import OneShot.Proofs.Release
import OneShot.Proofs.Roster
import OneShot.Proofs.Outlets.Gate

namespace OneShot

set_option autoImplicit false

variable {α ε : Type}

/-! ## Going through a list -/

namespace Store

/-- Alive, and without an owner. -/
def loose (st : Store α ε) (agenda : List (Task α ε)) (h : HandleRef) : Bool :=
  st.alive h && !st.owned agenda h

section Release

variable {st : Store α ε} {agenda : List (Task α ε)} {h : HandleRef}

theorem release_drops : (st.release agenda h).2 = if st.loose agenda h then [.dropped h] else [] := by
  unfold release loose
  split <;> rfl

/-- A release makes no difference to any other handle. -/
theorem release_loose {g : HandleRef} (other : g ≠ h) :
    (st.release agenda h).1.loose agenda g = st.loose agenda g := by
  have alive : (st.release agenda h).1.alive g = st.alive g := by
    rw [Bool.eq_iff_iff, release_alive]
    exact ⟨fun on => on.1, fun on => ⟨on, fun same => absurd same other⟩⟩
  rw [loose, alive, (st.release_forgets agenda h).owned, loose]

/-- **Of a list that is let go, those are dropped that nothing owns, in order.** -/
theorem letGo_drops {hs : List HandleRef} (once : hs.Nodup) :
    (st.letGo agenda hs).2 = (hs.filter (st.loose agenda)).map .dropped := by
  induction hs generalizing st with
  | nil => rfl
  | cons h hs ih =>
      obtain ⟨out, once⟩ := List.nodup_cons.1 once
      have later : hs.filter ((st.release agenda h).1.loose agenda) = hs.filter (st.loose agenda) :=
        List.filter_congr fun g member => release_loose (ne_of_mem_of_not_mem member out)
      show (st.release agenda h).2 ++ ((st.release agenda h).1.letGo agenda hs).2 = _
      rw [ih once, later, release_drops]
      cases loose : st.loose agenda h <;> simp [loose]

end Release

end Store

namespace Machine

/-- Nothing else owns the handle than the task in hand and its registry: no value is parked on
it, and no other call in progress works on it. -/
def free (m : Machine α ε) (h : HandleRef) : Bool :=
  m.store.phase h != .parked && !m.agenda.tail.any (Task.holds h)

end Machine

namespace Sound

variable {m : Machine α ε} {h : HandleRef}

/-- Where a registry owns nothing, the handles that are free are without an owner. -/
theorem owned_eq (sound : Sound m) {x : Handle α ε} (found : m.store.handles[h]? = some x)
    {t : Task α ε} {rest : List (Task α ε)} (turn : m.agenda = t :: rest)
    (unlisted : (m.store.referenced rest x.sink && (m.store.registry x.sink).handles.contains h) =
      false) : m.store.owned rest h = !m.free h := by
  rw [Store.owned_of found, unlisted, Bool.or_false, (sound.standing h x (by simp) found).keepAlive,
    Machine.free, Store.phase_of found, turn, List.tail_cons, bne, Bool.not_and, Bool.not_not, Bool.not_not]

/-- **What is let go together**: of a list of handles that were alive, and that no registry owns
any more, those are dropped that are free. -/
theorem news_of_list (sound : Sound m) {t : Task α ε} {rest : List (Task α ε)}
    (turn : m.agenda = t :: rest) {hs : List HandleRef}
    (events : (t.effect m.store rest).events = (m.store.letGo rest hs).2) (once : hs.Nodup)
    (alive : ∀ h ∈ hs, m.store.alive h = true)
    (unlisted : ∀ h ∈ hs, ∀ x : Handle α ε, m.store.handles[h]? = some x →
      (m.store.referenced rest x.sink && (m.store.registry x.sink).handles.contains h) = false) :
    m.news = (hs.filter m.free).map .dropped := by
  have same : hs.filter (m.store.loose rest) = hs.filter m.free := by
    refine List.filter_congr fun h member => ?_
    have on := alive h member
    cases found : m.store.handles[h]? with
    | none => simp [Store.alive, found] at on
    | some x =>
        rw [Store.loose, on, sound.owned_eq found turn (unlisted h member x found), Bool.not_not,
          Bool.true_and]
  rw [Machine.news_cons turn, events, Store.letGo_drops once, same]

end Sound

/-! ## The end of a loop -/

namespace Sound

variable {m : Machine α ε}

/-- A loop that is over lets go of what it went through. -/
theorem lets_go (sound : Sound m) (tended : Tended m) {hs : List HandleRef}
    {rest : List (Task α ε)} (turn : m.agenda = .letGo hs :: rest) (once : hs.Nodup) {s : SinkRef}
    (made : ∀ h ∈ hs, .subscribing s h ∈ m.history) {o : Outcome α ε}
    (ended : .terminating s o true ∈ m.history) :
    (∀ h ∈ hs, m.store.alive h = true) ∧ m.news = (hs.filter m.free).map .dropped := by
  have alive : ∀ h ∈ hs, m.store.alive h = true := by
    intro h member
    obtain ⟨x, found, -⟩ := Option.map_eq_some_iff.1 ((sound.made s h).1 (made h member))
    refine tended.alive_of_held (Store.lt_of_found found) ?_
    simp [turn, Task.holds, member]
  refine ⟨alive, sound.news_of_list turn rfl once alive ?_⟩
  intro h member x found
  rw [← (sound.subscribed_iff found).1 (made h member), sound.ended_iff.1 ended]
  simp [Registry.handles]

end Sound

/-! ## The last reference to a sink -/

namespace Sound

variable {m : Machine α ε} {s : SinkRef} {hs : List HandleRef}

/-- Who waits in a registry is free, unless a call in progress works on it. -/
theorem free_of_waiting (sound : Sound m) {h : HandleRef}
    (waits : h ∈ (m.store.registry s).handles) :
    m.free h = !m.agenda.tail.any (Task.holds h) := by
  obtain ⟨x, found, -, early⟩ := sound.waits_without_value waits
  have unparked : (m.store.phase h != .parked) = true := by
    rw [Store.phase_of found]
    rcases early with idle | requested
    · rw [idle]
      rfl
    · rw [requested]
      rfl
  rw [Machine.free, unparked, Bool.true_and]

/-- **The last reference to a sink that has not ended** takes the handles of its registry with
it that are free. -/
theorem gives_up (sound : Sound m) (tended : Tended m) (inside : s < m.store.sinks.length)
    (open_ : m.store.registry s = .live hs)
    (referenced : m.store.referenced m.agenda s = true)
    (unreferenced : m.step.store.referenced m.step.agenda s = false) :
    (∃ rest, m.agenda = .giveUp s :: rest) ∧ (∀ h ∈ hs, m.store.alive h = true) ∧
      m.news = (hs.filter m.free).map .dropped := by
  rw [Machine.referenced_step inside] at unreferenced
  have waiting : ∀ h ∈ hs, h ∈ (m.store.registry s).handles := fun h member => by
    rw [open_]
    exact member
  -- the reference that is gone was the task in hand
  obtain ⟨rest, turn⟩ : ∃ rest, m.agenda = .giveUp s :: rest := by
    cases turn : m.agenda with
    | nil =>
        rw [turn] at referenced unreferenced
        cases referenced.symm.trans unreferenced
    | cons t rest =>
        rw [turn, List.tail_cons, Store.referenced, Bool.or_eq_false_iff] at unreferenced
        rw [turn, Store.referenced, unreferenced.1, List.any_cons, unreferenced.2, Bool.or_false,
          Bool.false_or] at referenced
        cases t with
        | giveUp s' =>
            obtain rfl : s = s' := by simpa [Task.refersTo] using referenced
            exact ⟨rest, rfl⟩
        | _ => cases referenced
  have last : m.store.referenced rest s = false := by
    rw [turn] at unreferenced
    exact unreferenced
  have home : ∀ h ∈ hs, ∀ x : Handle α ε, m.store.handles[h]? = some x → x.sink = s :=
    fun h member x found => sound.coherent.home found (waiting h member)
  have alive : ∀ h ∈ hs, m.store.alive h = true := by
    intro h member
    obtain ⟨x, found, home⟩ := sound.coherent.enrolled s h (waiting h member)
    rw [tended.kept h, Store.owned_of found, home, referenced, Bool.true_and,
      List.contains_iff_mem.2 (waiting h member), Bool.or_true]
  have events : ((Task.giveUp s).effect m.store rest).events = (m.store.letGo rest hs).2 := by
    simp [Task.effect, Store.giveUp, last, open_, Registry.handles]
  refine ⟨⟨rest, turn⟩, alive, sound.news_of_list turn events (sound.coherent.once open_) alive ?_⟩
  intro h member x found
  rw [home h member x found, last, Bool.false_and]

/-- Nobody who waits at a sink that is gone is ever called again. -/
theorem hears_no_more (sound : Sound m) (open_ : m.store.registry s = .live hs)
    (silent : ∀ o, .terminating s o true ∉ m.news)
    (unreferenced : m.step.store.referenced m.step.agenda s = false) {h : HandleRef}
    (waits : h ∈ hs) (k : Nat) : callbacks h (m.steps k).history = inTurn h [.subscribed] := by
  have waiting : h ∈ (m.store.registry s).handles := by
    rw [open_]
    exact waits
  obtain ⟨x, found, rfl⟩ := sound.coherent.enrolled s h waiting
  have made : .subscribing x.sink h ∈ m.history := (sound.subscribed_iff found).2 rfl
  -- the sink has not ended, and nobody can end it now
  have unended : ∀ o, .terminating x.sink o true ∉ m.history := by
    intro o ended
    rw [sound.ended_iff, open_] at ended
    cases ended
  have never : ∀ o, .terminating x.sink o true ∉ (m.steps k).history := by
    cases k with
    | zero => exact unended
    | succ k =>
        intro o ended
        have same := Machine.dropped_steps sound.step ((m.history_prefix_step).subset made)
          unreferenced k
        rw [Machine.steps_succ, ← mem_attempts, same, mem_attempts, Machine.history_step] at ended
        rcases List.mem_append.1 ended with before | now
        · exact unended o before
        · exact silent o now
  have heard : callbacks h m.history = inTurn h [.subscribed] := by
    have course := (sound.standing h x (by simp) found).course
    rw [Registry.place_eq_waiting.2 waiting] at course
    exact course.of_waiting.2.1
  obtain ⟨y, found', home⟩ := sound.found_steps found k
  have early : callbacks h (m.steps k).history <+: inTurn h [.subscribed] := by
    refine ((sound.steps k).standing h y (by simp) found').course.heard_early ?_
    intro o closed
    rw [home, Registry.place_eq_closed, Registry.outcome?_eq_some] at closed
    exact never o ((sound.steps k).ended_iff.2 closed)
  have grown : callbacks h m.history <+: callbacks h (m.steps k).history :=
    (m.history_prefix_steps k).filter _
  rw [heard] at grown
  exact early.eq_of_length_le grown.length_le

end Sound

/-! ## The result -/

/-- **Handles are let go in batches.**

A call that ends a sink goes through the handles of its registry, which are those that were
acknowledged and not cancelled, in the order of their acknowledgments.  Until its loop over them
is over, none of them is dropped, whatever the consumers do, and so none that is cancelled on
the way.  Then they are let go together: those are dropped on which no value is parked and no
other call works, in the order of the registry, and nothing else happens.

When the last reference to a sink goes whose registry is open, just those of the handles in it
are dropped at that moment on which no call works, in the order of the registry; and none of
the handles in it hears anything more than its acknowledgment, then or later. -/
theorem batch_release (script : List (Step α ε)) :
    let run := fun n => (Machine.load script).steps n
    (∀ i s o, .terminating s o true ∈ (run i).news →
      ∃ within step rest hs moment,
        let closing := .giveUp s :: .answer within step (.reply (.flag true)) :: rest
        let home := i + 1 + moment hs.length
        (run i).Ends s o within step rest ∧ (run i).store.registry s = .live hs ∧
          hs = roster s (run i).history ∧ moment 0 = 0 ∧
          (run i).step.Visits o hs (.letGo hs :: closing) moment ∧
          (run home).agenda = .letGo hs :: closing ∧
          (∀ n, i ≤ n → n ≤ home → ∀ h ∈ hs,
            (run n).store.alive h = true ∧ .dropped h ∉ (run n).history) ∧
          (run home).news = (hs.filter (run home).free).map .dropped) ∧
      ∀ n s hs, s < (run n).store.sinks.length → (run n).store.registry s = .live hs →
        (run n).store.referenced (run n).agenda s = true →
        (run (n + 1)).store.referenced (run (n + 1)).agenda s = false →
        hs = roster s (run n).history ∧ (∃ rest, (run n).agenda = .giveUp s :: rest) ∧
          (∀ h ∈ hs, (run n).store.alive h = true) ∧
          (run n).news =
            (hs.filter fun h => !(run n).agenda.tail.any (Task.holds h)).map .dropped ∧
          ∀ h ∈ hs, ∀ k, callbacks h (run (n + k)).history = inTurn h [.subscribed] := by
  intro run
  have sound : ∀ n, Sound (run n) := Machine.steps_sound script
  have tended : ∀ n, Tended (run n) := Machine.steps_tended script
  refine ⟨?_, ?_⟩
  · intro i s o wins
    obtain ⟨within, step, rest, hs, starts, open_, stack⟩ := (sound i).wins wins
    obtain ⟨moment, start, visits⟩ := (sound i).step.visits stack
    refine ⟨within, step, rest, hs, moment, ?_⟩
    intro closing home
    have passed : (run home).agenda = .letGo hs :: closing := by
      have passed := visits.agenda hs.length (Nat.le_refl _)
      rw [List.drop_length, ← Machine.steps_succ, ← Machine.steps_add] at passed
      rw [show home = i + (moment hs.length + 1) by omega]
      exact passed
    have waiting : ∀ h ∈ hs, h ∈ ((run i).store.registry s).handles := fun h member => by
      rw [open_]
      exact member
    have made : ∀ h ∈ hs, .subscribing s h ∈ (run i).history := fun h member =>
      (((sound i).waiting_iff open_).1 member).1
    have later : (run i).history <+: (run home).history :=
      (Machine.load script).history_mono (by omega)
    have ended : .terminating s o true ∈ (run home).history := by
      apply ((Machine.load script).history_mono (show i + 1 ≤ home by omega)).subset
      rw [Machine.steps_step, Machine.history_step]
      exact List.mem_append_right _ wins
    obtain ⟨alive, dropped⟩ := (sound home).lets_go (tended home) passed
      ((sound i).coherent.once open_) (fun h member => later.subset (made h member)) ended
    refine ⟨starts, open_, (sound i).roster (Machine.ranked_steps script i) open_, start, visits,
      passed, ?_, dropped⟩
    intro n ge le h member
    have kept : .dropped h ∉ (run n).history := fun gone =>
      (tended home).kept_of_alive (alive h member)
        (((Machine.load script).history_mono le).subset gone)
    obtain ⟨d, rfl⟩ := Nat.exists_eq_add_of_le ge
    obtain ⟨x, found, -⟩ := (sound i).coherent.enrolled s h (waiting h member)
    have inside := (sound i).inside_steps (Store.lt_of_found found) d
    rw [← Machine.steps_add] at inside
    exact ⟨(tended (i + d)).alive_of_kept inside kept, kept⟩
  · intro n s hs inside open_ referenced unreferenced
    rw [show run (n + 1) = (run n).step from Machine.steps_step n _] at unreferenced
    obtain ⟨turn, alive, dropped⟩ := (sound n).gives_up (tended n) inside open_ referenced
      unreferenced
    have free : hs.filter (run n).free =
        hs.filter fun h => !(run n).agenda.tail.any (Task.holds h) :=
      List.filter_congr fun h member => (sound n).free_of_waiting (by rw [open_]; exact member)
    have silent : ∀ o, .terminating s o true ∉ (run n).news := by
      rw [dropped]
      simp
    refine ⟨(sound n).roster (Machine.ranked_steps script n) open_, turn, alive, free ▸ dropped, ?_⟩
    intro h member k
    rw [show run (n + k) = (run n).steps k from Machine.steps_add n k _]
    exact (sound n).hears_no_more open_ silent unreferenced member k

/-- A consumer hears a value, cancels the one behind it, and drops another sink; a third one has
not asked for the value. -/
theorem batch_release_within :
    let script : List (Step Nat Nat) :=
      [.newSink none, .newSink none,
        .subscribe 0 [.request .own 1] [.cancel (.slot 1), .dropSink 1] [] [],
        .subscribe 0 [.request .own 1] [] [] [], .subscribe 0 [] [] [] [],
        .subscribe 1 [] [] [] [], .subscribe 1 [] [] [] [], .succeed 0 (some 7)]
    let run := fun n => (Machine.load script).steps n
    (.terminating 0 (.value 7) true ∈ (run 40).news ∧
        (run 40).store.registry 0 = .live [0, 1, 2] ∧
        ∃ n > 40, (∀ h ∈ [0, 1, 2], .dropped h ∉ (run n).history) ∧
          (run n).news = ([0, 1, 2].filter (run n).free).map .dropped) ∧
      (run 47).store.registry 1 = .live [3, 4] ∧
        (run 47).store.referenced (run 47).agenda 1 = true ∧
        (run 48).store.referenced (run 48).agenda 1 = false ∧
        (run 47).news = [.dropped 3, .dropped 4] ∧
        ∀ h ∈ [3, 4], ∀ k, callbacks h (run (47 + k)).history = inTurn h [.subscribed] := by
  intro script run
  have wins : .terminating 0 (.value 7) true ∈ (run 40).news := mem_attempts.1 (by decide +kernel)
  have waiting : (run 40).store.registry 0 = .live [0, 1, 2] := by decide +kernel
  have left : (run 47).store.registry 1 = .live [3, 4] := by decide +kernel
  have referenced : (run 47).store.referenced (run 47).agenda 1 = true := by decide +kernel
  have unreferenced : (run 48).store.referenced (run 48).agenda 1 = false := by decide +kernel
  have free : ([3, 4].filter fun h => !(run 47).agenda.tail.any (Task.holds h)) = [3, 4] := by
    decide +kernel
  obtain ⟨loops, drops⟩ := batch_release script
  obtain ⟨within, step, rest, hs, moment, -, open_, -, -, -, -, kept, dropped⟩ :=
    loops 40 0 (.value 7) wins
  obtain rfl : hs = [0, 1, 2] := Registry.live.inj (open_.symm.trans waiting)
  obtain ⟨-, -, -, gone, silent⟩ := drops 47 1 [3, 4] (by decide +kernel) left referenced
    unreferenced
  refine ⟨⟨wins, waiting, _, ?_, fun h member => (kept _ ?_ (Nat.le_refl _) h member).2, dropped⟩,
    left, referenced, unreferenced, ?_, silent⟩
  · omega
  · omega
  · rw [gone, free]
    rfl

end OneShot
