/-
# OneShot.Proofs.Journal.Faithful -- the log is an account of the state

Every machine that a script reaches is logged.  What follows from that for the log alone, and for
the calls that write it, is put together here (`log_is_faithful`):

* who has joined a registry and not left it are as many as a look at the sink counts;
* the end of a sink is written once, by the call that wins, and ends its account;
* of a handle everything is written once, and after its cause;
* a call that subscribes has written how its handle went on when it returns, and a call that
  ends a sink has written that it did, or that it was ignored.
-/
import OneShot.Proofs.Journal.Writing
import OneShot.Proofs.Ending
import OneShot.Proofs.Roster

namespace OneShot

set_option autoImplicit false

variable {α ε : Type}

/-! ## What a logged store says of its log -/

namespace Store.Logged

variable {st : Store α ε} {history : List (Event α ε)}

/-- There is a story of every handle, made or not. -/
theorem told (logged : st.Logged history) (h : HandleRef) : ∃ s, Story s h (h ∈ greeted history)
    (h ∈ (st.registry s).handles) (st.phase h) (tale h history) := by
  cases found : st.handles[h]? with
  | none => exact ⟨0, logged.tales h 0 fun x at_ => by rw [found] at at_; cases at_⟩
  | some x =>
      refine ⟨x.sink, logged.tales h x.sink fun y at_ => ?_⟩
      rw [found] at at_
      exact congrArg Handle.sink (Option.some.inj at_).symm

theorem wellTold (logged : st.Logged history) (h : HandleRef) : WellTold h (log history) := by
  obtain ⟨s, story⟩ := logged.told h
  exact story.wellTold.of_told

theorem unentered (logged : st.Logged history) {h : HandleRef} (early : h ∉ greeted history) :
    (log history).countP (Notice.enters h) = 0 := by
  obtain ⟨s, story⟩ := logged.told h
  rw [← countP_told fun _ => Notice.tellsOf_of_enters]
  exact story.unentered early

theorem entered (logged : st.Logged history) {h : HandleRef} {x : Handle α ε}
    (found : st.handles[h]? = some x) (late : h ∈ greeted history) :
    (log history).countP (Notice.enters h) = 1 ∧
      (.registered x.sink h ∈ log history ∨ .replaying x.sink h ∈ log history) := by
  obtain ⟨once, told⟩ := (logged.story found).entered late
  rw [← countP_told fun _ => Notice.tellsOf_of_enters]
  exact ⟨once, told.imp (fun member => (List.mem_filter.1 member).1)
    fun member => (List.mem_filter.1 member).1⟩

/-- As long as a sink is open, those who have joined and not left are those who wait. -/
theorem pending (logged : st.Logged history) {s : SinkRef} {hs : List HandleRef}
    (open_ : st.registry s = .live hs) :
    (log history).countP (Notice.joins s) = (log history).countP (Notice.leaves s) + hs.length ∧
      ∀ t k, .terminated s t k ∉ log history := by
  have account := logged.accounts s
  rw [open_] at account
  cases account with
  | running silent even =>
      refine ⟨even, fun t k member => ?_⟩
      simpa [Notice.ends] using silent _ member

/-- The end of a sink is written once, and is the last that is written of it. -/
theorem ended (logged : st.Logged history) {s : SinkRef} {o : Outcome α ε}
    (frozen : st.registry s = .frozen o) :
    ∃ before k after, log history = before ++ .terminated s o.termination k :: after ∧
      before.countP (Notice.joins s) = before.countP (Notice.leaves s) + k ∧
      (∀ t k', .terminated s t k' ∉ before) ∧ ∀ entry ∈ after, entry.countsFor s = false := by
  have account := logged.accounts s
  rw [frozen] at account
  generalize log history = entries at account
  cases account with
  | @ended _ k before after silent even last =>
      refine ⟨before, k, after, rfl, even, fun t k' member => ?_, last⟩
      simpa [Notice.ends] using silent _ member

end Store.Logged

/-! ## Calls -/

/-- The call that wins writes how many waited. -/
theorem Store.terminate_written {st : Store α ε} {s : SinkRef} {y : Sink α ε}
    (found : st.sinks[s]? = some y) (pending : y.flag = .pending) (o : Outcome α ε) :
    (st.terminate s o).1 = true ∧ (st.terminate s o).2.events =
      [.terminating s o true,
        .noticed (.terminated s o.termination y.registry.handles.length)] := by
  simp [terminate, found, pending]

namespace Sound

variable {m : Machine α ε} {s : SinkRef} {h : HandleRef}

/-- A handle is not acknowledged before it is subscribed. -/
theorem ungreeted_of_subscribing (sound : Sound m) (made : .subscribing s h ∈ m.news) :
    h ∉ greeted m.history := by
  obtain ⟨within, step, rest, -, told⟩ := Machine.subscribes made
  obtain ⟨last, -⟩ := (m.store.perform_deed rest within step).subscribes told
  have none_ : m.store.handles[h]? = none := by
    rw [last]
    exact List.getElem?_eq_none (Nat.le_refl _)
  have blank : callbacks h m.history = [] := congrArg Ledger.callbacks (sound.unborn h none_).2
  rw [mem_greeted, ← ended_mem_callbacks, blank]
  simp

/-- **A call that subscribes returns behind the acknowledgment** of its handle. -/
theorem subscribing_returns (sound : Sound m) {within : Option Nat} {step : Step α ε}
    {rest : List (Task α ε)} (starts : m.Subscribes s h within step rest) :
    ∃ j, (m.steps j).agenda = rest ∧ (∀ i < j, (m.steps i).Busy rest) ∧
      h ∈ greeted (m.steps j).history := by
  have made : .subscribing s h ∈ m.news := Machine.subscribing_iff.2 ⟨_, _, _, starts⟩
  obtain ⟨within', step', rest', work, closing, turn, due, -, -⟩ := sound.summons made
  cases turn.symm.trans starts.turn
  have stack : m.step.agenda =
      .notify h .subscribed :: ((work ++ [.answer within step closing]) ++ rest) := by
    rw [due]
    simp
  -- the acknowledgment runs, ends, and what it has put off is done
  obtain ⟨n, m', runs, ends⟩ := sound.step.acknowledges stack
  have sound' : Sound m' := runs.1 ▸ sound.step.steps n
  have after_ : m'.step.agenda = ((Task.finish h .subscribed).effect m'.store
      ((work ++ [.answer within step closing]) ++ rest)).tasks ++
        ((work ++ [.answer within step closing]) ++ ([] ++ rest)) := by
    rw [Machine.step_cons ends, Machine.undergo_agenda, Machine.behind_agenda, ends]
    rfl
  rw [← List.append_assoc] at after_
  obtain ⟨k, m'', last, returned⟩ := Machine.Leads.back sound'.step after_
  have begins : Machine.Leads rest m m.step 1 := .last turn
  obtain ⟨whole, busy⟩ := ((begins.trans runs).trans (.step ends)).trans last
  refine ⟨_, by rw [whole]; exact returned, busy, ?_⟩
  have greets : h ∈ greeted m'.step.history := by
    rw [greeted_step ends]
    simp
  rw [whole, ← last.1]
  exact ((Machine.history_prefix_steps m'.step k).filterMap _).subset greets

/-- **A call that ends a sink writes that it did, or that it was ignored.**  It returns, and what
it has written by then starts with the one or is the other. -/
theorem ending_returns (sound : Sound m) (logged : m.store.Logged m.history) {o : Outcome α ε}
    {within : Option Nat} {step : Step α ε} {rest : List (Task α ε)}
    (starts : m.Ends s o within step rest) :
    ∃ j told, (m.steps j).agenda = rest ∧ (∀ i < j, (m.steps i).Busy rest) ∧
      (m.steps j).history = m.history ++ .performed within step :: told ∧
      ((∃ k later, told = .terminating s o true :: .noticed (.terminated s o.termination k) ::
            later ++ [.answered within step (.flag true)] ∧
          (log m.history).countP (Notice.joins s) = (log m.history).countP (Notice.leaves s) + k) ∨
        ∃ current, told = [.terminating s o false, .noticed (.ignored s o.termination current),
          .answered within step (.flag false)]) := by
  cases started : attempts s m.history with
  | nil =>
      obtain ⟨-, y, at_, tenure⟩ := sound.sink_of_ends starts
      rw [started] at tenure
      obtain ⟨open_, flag⟩ := tenure.of_nil
      obtain ⟨won, written⟩ := Store.terminate_written at_ flag o
      have performed := Store.perform_ending starts.ends rest within
      rw [won] at performed
      have history : m.step.history = m.history ++ [.performed within step, .terminating s o true,
          .noticed (.terminated s o.termination y.registry.handles.length)] := by
        rw [Machine.step_perform starts.turn performed]
        simp [Machine.history, written]
      obtain ⟨j, back, busy, between, st, told⟩ := Machine.steps_answer sound starts.turn
      rw [performed, history] at told
      refine ⟨j, _, back, busy, ?_, .inl ⟨y.registry.handles.length, between, rfl, ?_⟩⟩
      · rw [told]
        simp [Store.conclude]
      · have same := m.store.registry_of_sinks at_
        cases registry : m.store.registry s with
        | live hs =>
            rw [← same, registry]
            exact (logged.pending registry).1
        | frozen o' =>
            rw [registry] at open_
            cases open_
  | cons first later =>
      obtain ⟨one, two, three⟩ := sound.ending_later starts started
      refine ⟨3, _, by rw [three], ?_, ?_, .inr ⟨first.1.termination, rfl⟩⟩
      · intro i lt
        obtain rfl | rfl | rfl : i = 0 ∨ i = 1 ∨ i = 2 := by omega
        · exact ⟨[_], by simp, starts.turn⟩
        · exact ⟨[_, _], by simp, by rw [one]; rfl⟩
        · exact ⟨[_], by simp, by rw [two]; rfl⟩
      · rw [three]
        simp [Machine.history]

end Sound

/-! ## The result -/

/-- **The log is a faithful account**, at every moment of every run.

* While a sink is pending, looks at it count as many subscribers as have joined its registry and
  not left it, by the log; and no end of it is written.
* When it has ended, the end is written once, with the number of those who had joined and not
  left, and nothing is written of its registry after that.  It has ended if and only if some
  call has won.
* Of a handle each thing is written once at most: its removal after its registration and its
  cancellation, and that demand has met its value after the value was parked.
* A handle is subscribed by a step that names a sink, and what it attaches there; such a step
  subscribes the next handle, and returns.  Before it the log has neither joined that handle to a
  registry nor told it an outcome late; when it returns, and ever after, the log has one of the
  two, once.
* A call that ends a sink returns.  If it has won, it has written the end of the sink first of
  all, with the number of those who wait by the log; if not, that it was ignored, and nothing
  else. -/
theorem log_is_faithful (script : List (Step α ε)) (n : Nat) :
    let m := (Machine.load script).steps n
    let entries := log m.history
    (∀ s hs, m.store.registry s = .live hs →
        m.store.Shows s .pending none hs.length ∧
          entries.countP (Notice.joins s) = entries.countP (Notice.leaves s) + hs.length ∧
          ∀ t k, .terminated s t k ∉ entries) ∧
      (∀ s o, m.store.registry s = .frozen o →
        ∃ before k after, entries = before ++ .terminated s o.termination k :: after ∧
          before.countP (Notice.joins s) = before.countP (Notice.leaves s) + k ∧
          (∀ t k', .terminated s t k' ∉ before) ∧
          ∀ entry ∈ after, entry.countsFor s = false) ∧
      (∀ s o, m.store.registry s = .frozen o ↔ .terminating s o true ∈ m.history) ∧
      (∀ h, WellTold h entries) ∧
      (∀ s h, .subscribing s h ∈ m.news ↔
        ∃ within step rest, m.Subscribes s h within step rest) ∧
      (∀ s h within step rest, m.Subscribes s h within step rest →
        entries.countP (Notice.enters h) = 0 ∧
          ∃ j, (m.steps j).agenda = rest ∧ (∀ i < j, (m.steps i).Busy rest) ∧
            ∀ k ≥ j, (log (m.steps k).history).countP (Notice.enters h) = 1 ∧
              (.registered s h ∈ log (m.steps k).history ∨
                .replaying s h ∈ log (m.steps k).history)) ∧
      ∀ s o within step rest, m.Ends s o within step rest →
        ∃ j told, (m.steps j).agenda = rest ∧ (∀ i < j, (m.steps i).Busy rest) ∧
          (m.steps j).history = m.history ++ .performed within step :: told ∧
          ((∃ k later, told = .terminating s o true :: .noticed (.terminated s o.termination k) ::
                later ++ [.answered within step (.flag true)] ∧
              entries.countP (Notice.joins s) = entries.countP (Notice.leaves s) + k) ∨
            ∃ current, told = [.terminating s o false, .noticed (.ignored s o.termination current),
              .answered within step (.flag false)]) := by
  intro m entries
  have sound : Sound m := Machine.steps_sound script n
  have logged : m.store.Logged m.history := Machine.logged_steps script n
  refine ⟨?_, fun s o frozen => logged.ended frozen, fun s o => sound.ended_iff.symm,
    logged.wellTold, fun s h => Machine.subscribing_iff, ?_, fun s o within step rest starts => sound.ending_returns logged starts⟩
  · intro s hs open_
    have shows := m.store.shows_registry s
    rw [open_] at shows
    exact ⟨shows, logged.pending open_⟩
  · intro s h within step rest starts
    have made : .subscribing s h ∈ m.news := Machine.subscribing_iff.2 ⟨_, _, _, starts⟩
    obtain ⟨j, back, busy, greets⟩ := sound.subscribing_returns starts
    have early := sound.ungreeted_of_subscribing made
    refine ⟨logged.unentered early, j, back, busy, fun k late => ?_⟩
    have later : (m.steps k).store.Logged (m.steps k).history := by
      rw [← Machine.steps_add]
      exact Machine.logged_steps script (n + k)
    have stays : h ∈ greeted (m.steps k).history :=
      ((m.history_mono late).filterMap _).subset greets
    have begun : 1 ≤ k := by
      rcases Nat.eq_zero_or_pos k with rfl | begun
      · exact absurd stays early
      · exact begun
    have subscribed : .subscribing s h ∈ (m.steps k).history := by
      refine (m.history_mono begun).subset ?_
      rw [Machine.steps_step 0, Machine.steps_zero, Machine.history_step]
      exact List.mem_append_right _ made
    obtain ⟨x, found, rfl⟩ := Option.map_eq_some_iff.1 (((sound.steps k).made s h).1 subscribed)
    exact later.entered found stays

/-- Cancelled inside its acknowledgment, a handle joins the registry and leaves it at once; another
tries to end the sink while it hears its value; and a third one comes late. -/
theorem log_is_faithful_nested :
    let script : List (Step Nat Nat) :=
      [.newSink none, .subscribe 0 [.cancel .own] [] [] [],
        .subscribe 0 [.request .own 1] [.complete 0] [] [], .succeed 0 (some 7),
        .subscribe 0 [] [] [] []]
    log ((Machine.load script).steps 39).history =
        [.cancelled 0, .registered 0 0, .removed 0 0, .registered 0 1, .terminated 0 .succeeded 1,
          .ignored 0 .succeeded .succeeded, .replaying 0 2, .valueParked 2] ∧
      ((Machine.load script).steps 20).store.Shows 0 .pending none 1 ∧
      (log ((Machine.load script).steps 20).history).countP (Notice.joins 0) =
        (log ((Machine.load script).steps 20).history).countP (Notice.leaves 0) + 1 ∧
      ((log ((Machine.load script).steps 2).history).countP (Notice.enters 0) = 0 ∧
        (log ((Machine.load script).steps 39).history).countP (Notice.enters 0) = 1) ∧
      ((log ((Machine.load script).steps 32).history).countP (Notice.enters 2) = 0 ∧
        (log ((Machine.load script).steps 39).history).countP (Notice.enters 2) = 1) ∧
      ∃ j within step current, ((Machine.load script).steps (23 + j)).history =
        ((Machine.load script).steps 23).history ++
          [.performed within step, .terminating 0 .empty false,
            .noticed (.ignored 0 .succeeded current), .answered within step (.flag false)] := by
  intro script
  have closed : ((Machine.load script).steps 39).agenda = [] :=
    List.isEmpty_iff.1 (by decide +kernel)
  -- there is no moment after which the run does not come to its end
  have last : ∀ {i}, i ≤ 39 → ∀ j, ∃ k ≥ j,
      ((Machine.load script).steps i).steps k = (Machine.load script).steps 39 := by
    intro i le j
    refine ⟨39 + j, by omega, ?_⟩
    rw [← Machine.steps_add, show i + (39 + j) = 39 + (i + j) by omega, Machine.steps_add 39,
      Machine.steps_nil closed]
  obtain ⟨pending, -⟩ := log_is_faithful script 20
  obtain ⟨shows, account, -⟩ := pending 0 [1] (by decide +kernel)
  -- the handle that is cancelled, and the late one
  obtain ⟨-, -, -, -, starting, enters, -⟩ := log_is_faithful script 2
  obtain ⟨within, step, rest, first⟩ := (starting 0 0).1 (mem_admitted.1 (by decide +kernel))
  obtain ⟨early, j, back, busy, joined⟩ := enters _ _ _ _ _ first
  obtain ⟨-, -, -, -, starting', enters', -⟩ := log_is_faithful script 32
  obtain ⟨within', step', rest', third⟩ := (starting' 0 2).1 (mem_admitted.1 (by decide +kernel))
  obtain ⟨early', j', back', busy', joined'⟩ := enters' _ _ _ _ _ third
  -- the call inside the delivery
  obtain ⟨-, -, -, -, -, -, calls⟩ := log_is_faithful script 23
  obtain ⟨nested, inner, behind, second⟩ : ∃ within step rest,
      ((Machine.load script).steps 23).Ends 0 .empty within step rest :=
    Machine.ends_of_inHand (k := 0) (by decide +kernel) (by decide +kernel)
  obtain ⟨i, told, -, -, history, answers⟩ := calls _ _ _ _ _ second
  refine ⟨by decide +kernel, shows, account, ⟨early, ?_⟩, ⟨early', ?_⟩, i, nested, inner, ?_⟩
  · obtain ⟨k, late, same⟩ := last (by decide : 2 ≤ 39) j
    rw [← same]
    exact (joined k late).1
  · obtain ⟨k, late, same⟩ := last (by decide : 32 ≤ 39) j'
    rw [← same]
    exact (joined' k late).1
  · rw [Machine.steps_add]
    rcases answers with ⟨waiting, later, rfl, -⟩ | ⟨current, rfl⟩
    · obtain ⟨k, late, same⟩ := last (by decide : 23 ≤ 39) i
      have won : .terminating 0 .empty true ∈ ((Machine.load script).steps 39).history := by
        rw [← same]
        refine (Machine.history_mono _ late).subset ?_
        rw [history]
        simp
      exact absurd (mem_attempts.2 won) (by decide +kernel)
    · exact ⟨current, history⟩

end OneShot
