/-
# OneShot.Proofs.Grammar -- what a consumer hears

Two things are said here of the callbacks of one handle, in every run:

* at every moment they are the beginning of what its sink has to tell, one after the
  other: the acknowledgment, and once the sink has ended, the signals of its outcome
  (`callbacks_follow_outcome`);
* whenever no call is in progress, and the handle was never cancelled, nothing is missing
  (`heard_at_rest`): what its consumer has heard depends on the outcome of the sink and on
  whether there was positive demand, and on nothing else.

Both are read off the course of the handle.
-/
import OneShot.Proofs.Termination

namespace OneShot

set_option autoImplicit false

variable {α ε : Type}

/-! ## Along the course -/

theorem prefix_of_subscribed {h : HandleRef} {heard : List (Event α ε)}
    (early : heard <+: inTurn h [.subscribed]) (o : Outcome α ε) : heard <+: inTurn h o.signals := by
  obtain ⟨rest, eq⟩ := o.subscribed_prefix
  rw [← eq, inTurn_append]
  exact early.trans (List.prefix_append _ _)

/-- The second callback is that of the second signal. -/
theorem inTurn_second (h : HandleRef) (o : Outcome α ε) :
    (inTurn h o.signals)[2]? = o.signals[1]?.map (.began h) := by
  cases o <;> rfl

/-- An outcome is told by its second signal. -/
theorem outcome_of_second {o o' : Outcome α ε} (same : o.signals[1]? = o'.signals[1]?) : o' = o := by
  cases o <;> cases o' <;> simp_all [Outcome.signals]

/-- Callbacks beyond the acknowledgment belong to one outcome only. -/
theorem outcome_unique {h : HandleRef} {heard : List (Event α ε)} {o o' : Outcome α ε}
    (beyond : 2 < heard.length) (told : heard <+: inTurn h o.signals)
    (told' : heard <+: inTurn h o'.signals) : o' = o := by
  have second : ∀ {o : Outcome α ε}, heard <+: inTurn h o.signals →
      heard[2]? = o.signals[1]?.map (.began h) := by
    intro o told
    obtain ⟨rest, eq⟩ := told
    rw [← inTurn_second, ← eq, List.getElem?_append_left beyond]
  have same := (second told).symm.trans (second told')
  refine outcome_of_second (Option.map_injective ?_ same)
  intro a b eq
  simpa using eq

namespace Course

variable {h : HandleRef} {place : Place α ε} {asked renounced : Bool}
  {offers : List (Outcome α ε)} {heard : List (Event α ε)} {pending : List (Task α ε)}

/-- Behind the end of its sink, a handle hears the outcome. -/
theorem heard_closed {o : Outcome α ε} (closed : place = .closed o)
    (course : Course h place asked renounced offers heard pending) :
    heard <+: inTurn h o.signals := by
  have here : ∀ {o'}, place = .closed o' → o' = o := fun closed' => by
    simpa using closed'.symm.trans closed
  cases course with
  | summoned => exact List.nil_prefix
  | greeting => exact prefix_of_subscribed ⟨[.ended h .subscribed], rfl⟩ o
  | waiting | left | offered | withheld => exact prefix_of_subscribed List.prefix_rfl o
  | @due _ told later signal closed' script =>
      rw [← here closed', script, inTurn_append]
      exact List.prefix_append _ _
  | @hearing _ told later signal closed' script =>
      rw [← here closed', script, inTurn_append]
      exact (List.prefix_append_right_inj _).2 ⟨.ended h signal :: inTurn h later, rfl⟩
  | told closed' => obtain rfl := here closed'; exact List.prefix_rfl
  | broken closed' => rw [← here closed']; exact ⟨_, rfl⟩

/-- Before that, it hears its acknowledgment. -/
theorem heard_early (early : ∀ o, place ≠ .closed o)
    (course : Course h place asked renounced offers heard pending) :
    heard <+: inTurn h [.subscribed] := by
  cases course with
  | summoned => exact List.nil_prefix
  | greeting => exact ⟨[.ended h .subscribed], rfl⟩
  | waiting | left => exact List.prefix_rfl
  | offered closed | withheld closed | due closed | hearing closed | told closed | broken closed =>
      exact absurd closed (early _)

/-- A handle that was never cancelled and has nothing pending is where it should be. -/
theorem settled (course : Course h place asked false offers heard []) :
    (place = .waiting ∧ heard = inTurn h [.subscribed]) ∨
      ∃ o, place = .closed o ∧ offers = [o] ∧
        ((o.isValue = true → asked = true) ∧ heard = inTurn h o.signals ∨
          o.isValue = true ∧ asked = false ∧ heard = inTurn h [.subscribed]) := by
  cases course with
  | waiting here => exact .inl ⟨here, rfl⟩
  | left _ gone | broken _ gone => cases gone
  | @withheld o closed why =>
      rcases why with gone | ⟨value, unasked⟩
      · cases gone
      · exact .inr ⟨o, closed, rfl, .inr ⟨value, unasked, rfl⟩⟩
  | @told o closed fed => exact .inr ⟨o, closed, rfl, .inl ⟨fed, rfl⟩⟩

end Course

/-! ## In every run -/

/-- **At every moment, what a consumer has heard is the beginning of one outcome.**

A handle that was not made has heard nothing.  Any other was subscribed to one sink.  As
long as that has not ended, the acknowledgment is all that has begun; once it has, the
callbacks are the beginning of those that its outcome calls for, each over before the next
begins, and from the second one on of those of no other outcome. -/
theorem callbacks_follow_outcome (script : List (Step α ε)) (n : Nat) (h : HandleRef) :
    let m := (Machine.load script).steps n
    (callbacks h m.history = [] ∧ ∀ s, .subscribing s h ∉ m.history) ∨
      ∃ s, (∀ s', .subscribing s' h ∈ m.history ↔ s' = s) ∧
        (((∀ o, .terminating s o true ∉ m.history) ∧
            callbacks h m.history <+: inTurn h [.subscribed]) ∨
          ∃ o, (∀ o', .terminating s o' true ∈ m.history ↔ o' = o) ∧
            m.store.registry s = .frozen o ∧
            callbacks h m.history <+: inTurn h o.signals ∧
            (2 < (callbacks h m.history).length →
              ∀ o', callbacks h m.history <+: inTurn h o'.signals → o' = o)) := by
  intro m
  have sound : Sound m := Machine.steps_sound script n
  cases found : m.store.handles[h]? with
  | none =>
      obtain ⟨-, ledger⟩ := sound.unborn h found
      refine .inl ⟨congrArg Ledger.callbacks ledger, ?_⟩
      intro s member
      rw [sound.made, found] at member
      cases member
  | some x =>
      have course := (sound.standing h x (by simp) found).course
      refine .inr ⟨x.sink, fun s => sound.subscribed_iff found, ?_⟩
      cases registry : m.store.registry x.sink with
      | live waiting =>
          refine .inl ⟨?_, course.heard_early ?_⟩
          · intro o member
            rw [sound.ended_iff, registry] at member
            cases member
          · intro o closed
            rw [Registry.place_eq_closed, registry] at closed
            cases closed
      | frozen o =>
          have told := course.heard_closed (Registry.place_eq_closed.2 (congrArg _ registry))
          refine .inr ⟨o, ?_, rfl, told, fun beyond o' told' => outcome_unique beyond told told'⟩
          · intro o'
            rw [sound.ended_iff, registry, Registry.frozen.injEq, eq_comm]

/-- No call of the library is in progress. -/
def Machine.AtRest (m : Machine α ε) : Prop := ∀ t ∈ m.agenda, t.inCall = false

theorem Machine.AtRest.pending {m : Machine α ε} (rest : m.AtRest) (h : HandleRef) :
    m.pending h = [] := by
  apply List.filter_eq_nil_iff.2
  intro t member
  have idle := Task.concerns_of_isAside (t := t) (by rw [Task.isAside, rest t member]; rfl) h
  simp [idle]

/-- The value that waits on a handle for demand. -/
def Store.Parks (st : Store α ε) (h : HandleRef) (v : α) : Prop :=
  ∃ x : Handle α ε, st.handles[h]? = some x ∧ x.phase = .parked ∧ x.parked = some (.value v) ∧
    x.keepAlive = true

/-- Where a handle is when nothing is pending for it and it was never cancelled. -/
theorem Sound.settled {m : Machine α ε} (sound : Sound m) {h : HandleRef} {x : Handle α ε}
    (found : m.store.handles[h]? = some x) (idle : m.pending h = [])
    (kept : .cancelling h ∉ m.history) :
    ((∀ o, .terminating x.sink o true ∉ m.history) ∧
        callbacks h m.history = inTurn h [.subscribed]) ∨
      ∃ o, m.store.registry x.sink = .frozen o ∧
        (((o.isValue = true → ∃ n, n ≠ 0 ∧ .requesting h n ∈ m.history) ∧
            callbacks h m.history = inTurn h o.signals) ∨
          ∃ v, o = .value v ∧ (∀ n, .requesting h n ∈ m.history → n = 0) ∧
            callbacks h m.history = inTurn h [.subscribed] ∧ m.store.Parks h v) := by
  have stands := sound.standing h x (by simp) found
  have on : (Ledger.of h m.history).renounced = false := by
    rw [Bool.eq_false_iff, Ne, Ledger.renounced_iff]
    exact kept
  have course := stands.course
  rw [idle, on] at course
  rcases course.settled with ⟨here, heard⟩ | ⟨o, closed, offered, ⟨fed, heard⟩ | ⟨value, unasked, heard⟩⟩
  · refine .inl ⟨?_, heard⟩
    intro o member
    rw [sound.ended_iff] at member
    rw [member] at here
    cases here
  · have frozen := Registry.outcome?_eq_some.1 (Registry.place_eq_closed.1 closed)
    exact .inr ⟨o, frozen, .inl ⟨fun value => Ledger.asked_iff.1 (fed value), heard⟩⟩
  · have frozen := Registry.outcome?_eq_some.1 (Registry.place_eq_closed.1 closed)
    obtain ⟨v, rfl⟩ := Outcome.isValue_iff.1 value
    have parked : x.phase = .parked := by
      rw [stands.phase, on, unasked, offered]
      rfl
    refine .inr ⟨.value v, frozen, .inr ⟨v, rfl, ?_, heard, x, found, parked, ?_, ?_⟩⟩
    · intro n member
      by_cases zero : n = 0
      · exact zero
      · have asked := Ledger.asked_iff.2 ⟨n, zero, member⟩
        rw [unasked] at asked
        cases asked
    · rw [stands.parked, if_pos parked, offered]
      rfl
    · rw [stands.keepAlive, parked]
      rfl

/-- **No signal is lost.**  Whenever no call is in progress, the consumer of a handle that was
never cancelled has heard all that the outcome of its sink calls for; a value and its
completion only if there was positive demand, and without any it is parked. -/
theorem heard_at_rest (script : List (Step α ε)) (n : Nat) {s : SinkRef} {h : HandleRef}
    (rest : ((Machine.load script).steps n).AtRest)
    (made : .subscribing s h ∈ ((Machine.load script).steps n).history)
    (kept : .cancelling h ∉ ((Machine.load script).steps n).history) :
    let m := (Machine.load script).steps n
    ((∀ o, .terminating s o true ∉ m.history) →
        callbacks h m.history = inTurn h [.subscribed]) ∧
      (.terminating s .empty true ∈ m.history →
        callbacks h m.history = inTurn h [.subscribed, .complete]) ∧
      (∀ e, .terminating s (.error e) true ∈ m.history →
        callbacks h m.history = inTurn h [.subscribed, .error e]) ∧
      ∀ v, .terminating s (.value v) true ∈ m.history →
        ((∃ k, k ≠ 0 ∧ .requesting h k ∈ m.history) →
          callbacks h m.history = inTurn h [.subscribed, .next v, .complete]) ∧
        ((∀ k, .requesting h k ∈ m.history → k = 0) →
          callbacks h m.history = inTurn h [.subscribed] ∧ m.store.Parks h v) := by
  intro m
  have sound : Sound m := Machine.steps_sound script n
  obtain ⟨x, found, rfl⟩ : ∃ x, m.store.handles[h]? = some x ∧ x.sink = s := by
    have home := (sound.made s h).1 made
    rwa [Option.map_eq_some_iff] at home
  rcases sound.settled found (rest.pending h) kept with
    ⟨unended, heard⟩ | ⟨o, frozen, ⟨fed, heard⟩ | ⟨v, rfl, unfed, heard, parks⟩⟩
  · exact ⟨fun _ => heard, fun ended => absurd ended (unended _),
      fun e ended => absurd ended (unended _), fun v ended => absurd ended (unended _)⟩
  · refine ⟨?_, ?_, ?_, ?_⟩
    · intro unended
      exact absurd (sound.ended_iff.2 frozen) (unended o)
    · intro ended
      rw [heard, sound.eq_of_ended frozen ended]
      rfl
    · intro e ended
      rw [heard, sound.eq_of_ended frozen ended]
      rfl
    · intro v ended
      obtain rfl := sound.eq_of_ended frozen ended
      obtain ⟨k, positive, asked⟩ := fed rfl
      constructor
      · intro _
        exact heard
      · intro unfed
        exact absurd (unfed k asked) positive
  · refine ⟨?_, ?_, ?_, ?_⟩
    · intro unended
      exact absurd (sound.ended_iff.2 frozen) (unended _)
    · intro ended
      cases sound.eq_of_ended frozen ended
    · intro e ended
      cases sound.eq_of_ended frozen ended
    · intro w ended
      cases sound.eq_of_ended frozen ended
      constructor
      · rintro ⟨k, positive, asked⟩
        exact absurd (unfed k asked) positive
      · intro _
        exact ⟨heard, parks⟩

/-- A consumer asks inside its acknowledgment, and there ends the sink it waits on. -/
theorem heard_at_rest_ended_within :
    let script : List (Step Nat Nat) :=
      [.newSink none, .subscribe 0 [.request .own 1, .succeed 0 (some 7)] [] [] []]
    let m := (Machine.load script).steps 20
    m.AtRest ∧ .subscribing 0 0 ∈ m.history ∧ .cancelling 0 ∉ m.history ∧
      callbacks 0 m.history = inTurn 0 [.subscribed, .next 7, .complete] := by
  intro script m
  have sound : Sound m := Machine.steps_sound script 20
  have closed : m.agenda = [] := List.isEmpty_iff.1 (by decide +kernel)
  have rest : m.AtRest := by simp [Machine.AtRest, closed]
  have made : .subscribing 0 0 ∈ m.history := (sound.made 0 0).2 (by decide +kernel)
  have kept : .cancelling 0 ∉ m.history := by
    rw [← Ledger.renounced_iff]
    decide +kernel
  have ended : .terminating 0 (.value 7) true ∈ m.history := mem_attempts.1 (by decide +kernel)
  have asked : ∃ k, k ≠ 0 ∧ .requesting 0 k ∈ m.history := Ledger.asked_iff.1 (by decide +kernel)
  exact ⟨rest, made, kept, ((heard_at_rest script 20 rest made kept).2.2.2 7 ended).1 asked⟩

end OneShot
