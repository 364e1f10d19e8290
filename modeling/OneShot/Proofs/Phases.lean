/-
# OneShot.Proofs.Phases -- the phase of a handle is its history in short

Three things can have happened to a handle: a cancellation has reached it, positive demand has
reached it, and a value was offered to it.  Its phase says which of them have, and is decided by
nothing else (`Handle.Recalls`): neither by the order in which they happened, nor by how deep in
callbacks.  The two slots beside the phase are filled while a value is parked and at no other
time, and what is parked is the outcome with which the sink of the handle has ended.

For this a handle has to be offered its outcome once at most, by the loop over a registry and by
replay together (`Sound.offered_once`), and before it knows of any value (`Sound.due`).  So the
offer of a value comes to one of three ends (`Machine.Takes`), and a handle that already has one
is never among those that it finds.
-/
import OneShot.Proofs.Journal.Writing

namespace OneShot

set_option autoImplicit false

variable {α ε : Type}

/-! ## What happened to a handle -/

namespace Ledger

variable {h : HandleRef} {history : List (Event α ε)}

theorem mem_offers {o : Outcome α ε} :
    o ∈ (of h history).offers ↔ .attempted h o ∈ history := by
  simp only [of, List.mem_filterMap]
  constructor
  · rintro ⟨event, member, offer⟩
    cases event <;> simp_all [Event.offer?]
  · exact fun member => ⟨_, member, by simp [Event.offer?]⟩

theorem valued_iff :
    (of h history).offers.any Outcome.isValue = true ↔ ∃ v, .attempted h (.value v) ∈ history := by
  simp only [List.any_eq_true, mem_offers]
  constructor
  · rintro ⟨o, offered, value⟩
    obtain ⟨v, rfl⟩ := Outcome.isValue_iff.1 value
    exact ⟨v, offered⟩
  · rintro ⟨v, offered⟩
    exact ⟨_, offered, rfl⟩

end Ledger

namespace Standing

variable {h : HandleRef} {x : Handle α ε} {place : Place α ε} {history : List (Event α ε)}
  {pending : List (Task α ε)}

theorem cancelled_iff (stands : Standing h x place (.of h history) pending) :
    x.phase = .cancelled ↔ .cancelling h ∈ history := by
  rw [← stands.renounced_iff, Ledger.renounced_iff]

theorem hasDemand_iff (stands : Standing h x place (.of h history) pending)
    (on : x.phase ≠ .cancelled) :
    x.phase.hasDemand = true ↔ ∃ n, n ≠ 0 ∧ .requesting h n ∈ history := by
  rw [← (stands.reads on).1, Ledger.asked_iff]

theorem hasValue_iff (stands : Standing h x place (.of h history) pending)
    (on : x.phase ≠ .cancelled) :
    x.phase.hasValue = true ↔ ∃ v, .attempted h (.value v) ∈ history := by
  rw [← (stands.reads on).2, Ledger.valued_iff]

end Standing

/-- A sink whose registry is frozen has ended with that outcome, and with no other. -/
theorem SoundBut.ended_iff_eq {k : Option HandleRef} {m : Machine α ε} (sound : SoundBut k m)
    {s : SinkRef} {o o' : Outcome α ε} (frozen : m.store.registry s = .frozen o) :
    .terminating s o' true ∈ m.history ↔ o' = o := by
  rw [sound.ended_iff, frozen, Registry.frozen.injEq, eq_comm]

/-- It is told once of a handle that it is cancelled, and of no other. -/
theorem Story.cancelled_iff {s : SinkRef} {h : HandleRef} {back waits : Prop} {phase : Phase}
    {told : List Notice} (story : Story s h back waits phase told) :
    .cancelled h ∈ told ↔ phase = .cancelled := by
  cases story with
  | fresh _ _ on | waiting _ _ on => rcases on with rfl | rfl <;> simp
  | shunned _ _ gone | left _ _ gone | turnedAway _ _ gone | passedOver _ _ gone => simp [gone]
  | informed _ _ how told =>
      rcases how with rfl | rfl <;> cases told with
      | untold _ kept => simp [kept]
      | parked here | met here => simp [here]
      | forgone gone => simp [gone]

/-! ## What a handle remembers -/

/-- What a handle remembers is what the history tells of it. -/
structure Handle.Recalls (x : Handle α ε) (h : HandleRef) (history : List (Event α ε)) : Prop where
  /-- A cancellation has reached the handle alive. -/
  cancelled : x.phase = .cancelled ↔ .cancelling h ∈ history
  /-- Some cancellation has taken effect, and has said so. -/
  written : x.phase = .cancelled ↔ .noticed (.cancelled h) ∈ history
  demand : x.phase ≠ .cancelled →
    (x.phase.hasDemand = true ↔ ∃ n, n ≠ 0 ∧ .requesting h n ∈ history)
  value : x.phase ≠ .cancelled →
    (x.phase.hasValue = true ↔ ∃ v, .attempted h (.value v) ∈ history)
  slot : x.parked.isSome = true ↔ x.phase = .parked
  keepAlive : x.keepAlive = true ↔ x.phase = .parked
  /-- What is parked is the value with which the sink has ended. -/
  outcome : ∀ o, x.parked = some o →
    o.isValue = true ∧ ∀ o', .terminating x.sink o' true ∈ history ↔ o' = o

namespace Sound

variable {m : Machine α ε} {h : HandleRef} {x : Handle α ε}

/-- **A handle remembers what happened to it**, and nothing else. -/
theorem recalls (sound : Sound m) (logged : m.store.Logged m.history)
    (found : m.store.handles[h]? = some x) : x.Recalls h m.history := by
  have stands := sound.standing h x (by simp) found
  have parks : x.phase = .parked → ∃ v, x.parked = some (.value v) ∧
      m.store.registry x.sink = .frozen (.value v) := by
    intro parked
    obtain ⟨v, slot, closed, -⟩ := stands.of_parked parked
    exact ⟨v, slot, Registry.outcome?_eq_some.1 (Registry.place_eq_closed.1 closed)⟩
  have filled : ∀ {o}, x.parked = some o → x.phase = .parked := by
    intro o slot
    by_cases parked : x.phase = .parked
    · exact parked
    · rw [(stands.unparked parked).1] at slot
      cases slot
  refine ⟨stands.cancelled_iff, ?_, stands.hasDemand_iff, stands.hasValue_iff, ?_, ?_, ?_⟩
  · rw [← (logged.story found).cancelled_iff, tale, List.mem_filter, mem_log]
    simp [Notice.tellsOf]
  · constructor
    · intro some_
      obtain ⟨o, slot⟩ := Option.isSome_iff_exists.1 some_
      exact filled slot
    · intro parked
      obtain ⟨v, slot, -⟩ := parks parked
      rw [slot]
      rfl
  · rw [stands.keepAlive, beq_iff_eq]
  · intro o slot
    obtain ⟨v, slot', frozen⟩ := parks (filled slot)
    obtain rfl := Option.some.inj (slot.symm.trans slot')
    exact ⟨rfl, fun o' => sound.ended_iff_eq frozen⟩

/-- **What a look at a subscription shows** of its handle, as long as that is alive. -/
theorem shows (sound : Sound m) (h : HandleRef) :
    ((m.store.subView h).cancelled = true ↔
        m.store.alive h = true ∧ .cancelling h ∈ m.history) ∧
      ((m.store.subView h).requested = true ↔
        m.store.alive h = true ∧ .cancelling h ∉ m.history ∧
          ∃ n, n ≠ 0 ∧ .requesting h n ∈ m.history) := by
  cases found : m.store.handles[h]? with
  | none => simp [Store.subView, Store.alive, found]
  | some x =>
      have stands := sound.standing h x (by simp) found
      have phase := m.store.phase_of found
      simp only [Store.subView, phase, Bool.and_eq_true, beq_iff_eq, stands.cancelled_iff, true_and]
      refine and_congr_right fun _ => ?_
      by_cases on : x.phase = .cancelled
      · simp [on, Phase.hasDemand, stands.cancelled_iff.1 on]
      · rw [stands.hasDemand_iff on]
        simp [← stands.cancelled_iff, on]

end Sound

/-! ## The offer of an outcome -/

namespace Event

variable {h : HandleRef} {o : Outcome α ε} {events : List (Event α ε)}

theorem attempted_notMem (mute : ∀ event ∈ events, event.isTurn = false) :
    .attempted h o ∉ events := fun member => Bool.noConfusion (mute _ member)

end Event

/-- What a turn tells beside its first event is never an offer. -/
theorem Store.Turned.attempted_eq {st : Store α ε} {first : Event α ε} {e : Effect α ε}
    {h : HandleRef} {o : Outcome α ε} (turned : st.Turned first e)
    (member : .attempted h o ∈ e.events) : .attempted h o = first := by
  obtain ⟨others, events, aside⟩ := turned.events
  rw [events] at member
  refine (List.mem_cons.1 member).resolve_right ?_
  exact Event.attempted_notMem fun event member => Event.isTurn_of_isAside (aside event member)

/-- **An offer is told of when its task is done**, and at no other time. -/
theorem Machine.attempted_news {m : Machine α ε} {h : HandleRef} {o : Outcome α ε} :
    .attempted h o ∈ m.news ↔ ∃ rest, m.agenda = .deliver h o :: rest := by
  constructor
  · intro told
    cases turn : m.agenda with
    | nil =>
        rw [news_nil turn] at told
        cases told
    | cons t rest =>
        rw [news_cons turn] at told
        cases t with
        | perform within step =>
            have mute := (m.store.perform_deed rest within step).mute
            exact absurd ((List.mem_cons.1 told).resolve_left (by simp))
              (Event.attempted_notMem mute)
        | answer within step closing => simp [Task.effect] at told
        | notify g signal =>
            cases found : m.store.handles[g]? with
            | none =>
                rw [Task.effect, Store.notify, found] at told
                cases told
            | some x =>
                have deed := m.store.react_deed x.consumer g signal
                rw [Task.effect, Store.notify_eq found] at told
                exact absurd ((List.mem_cons.1 told).resolve_left (by simp))
                  (Event.attempted_notMem deed.mute)
        | finish g signal => cases (m.store.finish_turned g signal).attempted_eq told
        | deliver g o' =>
            cases (m.store.deliver_turned g o').attempted_eq told
            exact ⟨rest, rfl⟩
        | letGo hs =>
            exact absurd told
              (Event.attempted_notMem ((m.store.letGo_forgets rest hs).each fun _ => rfl))
        | giveUp s =>
            exact absurd told
              (Event.attempted_notMem ((m.store.giveUp_forgets rest s).each fun _ => rfl))
        | hangUp c => cases told
  · rintro ⟨rest, turn⟩
    obtain ⟨others, events, -⟩ := (m.store.deliver_turned h o).events
    rw [news_cons turn, Task.effect, events]
    exact List.mem_cons_self

/-- The task is an offer to this handle. -/
def Task.offers (h : HandleRef) : Task α ε → Bool
  | deliver h' _ => h' == h
  | _ => false

theorem Task.concerns_of_offers {h : HandleRef} {t : Task α ε} (offers : t.offers h = true) :
    t.concerns h = true := by
  cases t <;> simp_all [Task.offers, concerns]

/-- An offer is pending only as long as none was made. -/
theorem Course.offered_once {h : HandleRef} {place : Place α ε} {asked renounced : Bool}
    {offers : List (Outcome α ε)} {heard : List (Event α ε)} {pending : List (Task α ε)}
    (course : Course h place asked renounced offers heard pending) :
    offers.length + pending.countP (Task.offers h) ≤ 1 := by
  cases course <;> simp [Task.offers]

/-- What the offer of a value comes to, by the phase in which it finds the handle: it is handed
out, it is put away, or the handle is passed over. -/
inductive Machine.Takes (m : Machine α ε) (h : HandleRef) (v : α) (rest : List (Task α ε)) :
    Phase → Machine α ε → Prop
  | handed : Takes m h v rest .requested
      ⟨m.store.modifyHandle h Handle.feed, .notify h (.next v) :: rest,
        .attempted h (.value v) :: m.past⟩
  | putAway : Takes m h v rest .idle
      ⟨m.store.modifyHandle h (Handle.park v), rest,
        .noticed (.valueParked h) :: .attempted h (.value v) :: m.past⟩
  | passedOver : Takes m h v rest .cancelled
      ⟨m.store, rest, .noticed (.suppressed h) :: .attempted h (.value v) :: m.past⟩

namespace Sound

variable {m : Machine α ε} {h : HandleRef} {o : Outcome α ε}

/-- **A handle is offered one outcome at most**, and at most once. -/
theorem offered_once (sound : Sound m) (h : HandleRef) :
    (Ledger.of h m.history).offers.length + m.agenda.countP (Task.offers h) ≤ 1 := by
  have turns : m.agenda.countP (Task.offers h) = (m.pending h).countP (Task.offers h) := by
    rw [Machine.pending, List.countP_filter]
    refine List.countP_congr fun t _ => ?_
    simpa using Task.concerns_of_offers (h := h) (t := t)
  rw [turns]
  cases found : m.store.handles[h]? with
  | none =>
      obtain ⟨pending, ledger⟩ := sound.unborn h found
      rw [pending, ledger]
      simp [Ledger.empty]
  | some x => exact (sound.standing h x (by simp) found).course.offered_once

/-- **An offer that is still to be made** is of the outcome with which the sink has ended, and to a
handle that knows of no value. -/
theorem due (sound : Sound m) (due : .deliver h o ∈ m.agenda) :
    ∃ x, m.store.handles[h]? = some x ∧ x.phase.hasValue = false ∧
      ∀ o', .terminating x.sink o' true ∈ m.history ↔ o' = o := by
  have pending : .deliver h o ∈ m.pending h :=
    List.mem_filter.2 ⟨due, Task.deliver_concerns h o⟩
  cases found : m.store.handles[h]? with
  | none =>
      rw [(sound.unborn h found).1] at pending
      cases pending
  | some x =>
      have stands := sound.standing h x (by simp) found
      have alone : m.pending h = [.deliver h o] := by
        obtain ⟨before, after, split⟩ := List.append_of_mem pending
        have course := stands.course
        rw [split] at course ⊢
        cases before with
        | nil => rw [List.nil_append, course.pending_of_cons]
        | cons t before => simpa using course.pending_of_cons
      rw [alone] at stands
      have frozen := Registry.outcome?_eq_some.1
        (Registry.place_eq_closed.1 stands.course.of_deliver.1)
      exact ⟨x, rfl, stands.offer_fresh, fun o' => sound.ended_iff_eq frozen⟩

/-- **No offer of a value falls through**: it does something to every handle but a cancelled one. -/
theorem takes (sound : Sound m) {v : α} {rest : List (Task α ε)}
    (turn : m.agenda = .deliver h (.value v) :: rest) :
    ∃ x, m.store.handles[h]? = some x ∧ m.Takes h v rest x.phase m.step := by
  obtain ⟨x, found, empty, -⟩ := sound.due (by rw [turn]; exact List.mem_cons_self)
  refine ⟨x, found, ?_⟩
  have phase := m.store.phase_of found
  have offers := m.store.deliver_offers h (.value v)
  have step : m.step = m.behind.undergo (m.store.deliver h (.value v)) := Machine.step_cons turn
  rw [step]
  generalize m.store.deliver h (.value v) = e at offers ⊢
  simp only [Machine.undergo, Machine.behind, turn, List.tail_cons]
  cases offers with
  | withheld gone =>
      rw [phase.symm.trans gone]
      exact .passedOver
  | told _ script => cases script
  | fed requested =>
      rw [phase.symm.trans requested]
      exact .handed
  | parked idle =>
      rw [phase.symm.trans idle]
      exact .putAway
  | late valued =>
      rw [phase, empty] at valued
      cases valued

end Sound

/-! ## The result -/

/-- **The phase of a handle is its history in short**, at every moment of every run.

* A handle is cancelled if and only if a cancellation has reached it while it was alive; the first
  one has taken effect and has said so.  Otherwise its phase has demand if and only if a positive
  request has reached it while it was alive, and a value if and only if a value was offered to it.
* Its two slots are filled if and only if a value is parked, and what is parked is a value, the one
  outcome with which its sink was ended.
* A look at a subscription shows that much of a handle that is alive, and nothing of any other.
* Offers of an outcome are told of as they are made, by the loop over a registry or as a replay.
  Those that were made and those still to be made are one at most for each handle.  As long as one
  is to be made, the handle has no value, and it is the outcome with which its sink was ended.
* When a value is offered, it is handed out, or put away until there is demand; only a handle that
  is cancelled is left as it was. -/
theorem phase_tells_history (script : List (Step α ε)) (n : Nat) (h : HandleRef) :
    let m := (Machine.load script).steps n
    (∀ x, m.store.handles[h]? = some x → x.Recalls h m.history) ∧
      ((m.store.subView h).cancelled = true ↔
        m.store.alive h = true ∧ .cancelling h ∈ m.history) ∧
      ((m.store.subView h).requested = true ↔
        m.store.alive h = true ∧ .cancelling h ∉ m.history ∧
          ∃ k, k ≠ 0 ∧ .requesting h k ∈ m.history) ∧
      (∀ o, .attempted h o ∈ m.news ↔ ∃ rest, m.agenda = .deliver h o :: rest) ∧
      (Ledger.of h m.history).offers.length + m.agenda.countP (Task.offers h) ≤ 1 ∧
      (∀ o, .deliver h o ∈ m.agenda → ∃ x, m.store.handles[h]? = some x ∧
        x.phase.hasValue = false ∧ ∀ o', .terminating x.sink o' true ∈ m.history ↔ o' = o) ∧
      ∀ v rest, m.agenda = .deliver h (.value v) :: rest →
        ∃ x, m.store.handles[h]? = some x ∧ m.Takes h v rest x.phase m.step := by
  intro m
  have sound : Sound m := Machine.steps_sound script n
  have logged : m.store.Logged m.history := Machine.logged_steps script n
  obtain ⟨cancelled, requested⟩ := sound.shows h
  exact ⟨fun x found => sound.recalls logged found, cancelled, requested,
    fun o => Machine.attempted_news, sound.offered_once h, fun o due => sound.due due,
    fun v rest turn => sound.takes turn⟩

/-- A value is parked on a first handle.  A second one is handed the value, and asks for the first
in its callback; so the first is called as well, and cancels itself there. -/
theorem phase_tells_history_nested :
    let script : List (Step Nat Nat) :=
      [.newSink none, .subscribe 0 [] [.cancel .own] [] [],
        .subscribe 0 [.request .own 0, .request .own 2] [.request (.slot 0) 1] [] [],
        .succeed 0 (some 7)]
    let run := fun n => (Machine.load script).steps n
    ((run 22).store.phase 0 = .parked ∧ (∃ v, .attempted 0 (.value v) ∈ (run 22).history) ∧
        (∀ k, .requesting 0 k ∈ (run 22).history → k = 0) ∧
        ∃ x rest, (run 22).store.handles[1]? = some x ∧
          (run 22).Takes 1 7 rest x.phase (run 22).step) ∧
      ((run 25).store.phase 0 = .served ∧ .cancelling 0 ∉ (run 25).history ∧
        ∃ k, k ≠ 0 ∧ .requesting 0 k ∈ (run 25).history) ∧
      (run 27).store.phase 0 = .cancelled ∧ .noticed (.cancelled 0) ∈ (run 27).history := by
  intro script run
  have recalls : ∀ n, (run n).store.handles[0]?.isSome = true →
      ∃ x : Handle Nat Nat, (run n).store.phase 0 = x.phase ∧ x.Recalls 0 (run n).history := by
    intro n made
    obtain ⟨x, found⟩ := Option.isSome_iff_exists.1 made
    exact ⟨x, Store.phase_of found, (phase_tells_history script n 0).1 x found⟩
  have takes : ∀ n, .attempted 1 (.value 7) ∈ (run n).news →
      ∃ x rest, (run n).store.handles[1]? = some x ∧
        (run n).Takes 1 7 rest x.phase (run n).step := by
    intro n offered
    obtain ⟨-, -, -, told, -, -, takes⟩ := phase_tells_history script n 1
    obtain ⟨rest, turn⟩ := (told (.value 7)).1 offered
    obtain ⟨x, found, taken⟩ := takes 7 rest turn
    exact ⟨x, rest, found, taken⟩
  refine ⟨?_, ?_, ?_⟩
  · have parked : (run 22).store.phase 0 = .parked := by decide +kernel
    obtain ⟨x, phase, recalls⟩ := recalls 22 (by decide +kernel)
    have here : x.phase = .parked := phase.symm.trans parked
    have on : x.phase ≠ .cancelled := by simp [here]
    refine ⟨parked, (recalls.value on).1 (by rw [here]; rfl), ?_, ?_⟩
    · intro k asked
      by_cases zero : k = 0
      · exact zero
      · have demand := (recalls.demand on).2 ⟨k, zero, asked⟩
        rw [here] at demand
        cases demand
    · exact takes 22 (Ledger.mem_offers.1 (by decide +kernel))
  · have served : (run 25).store.phase 0 = .served := by decide +kernel
    obtain ⟨x, phase, recalls⟩ := recalls 25 (by decide +kernel)
    have here : x.phase = .served := phase.symm.trans served
    have on : x.phase ≠ .cancelled := by simp [here]
    exact ⟨served, fun cancelling => on (recalls.cancelled.2 cancelling),
      (recalls.demand on).1 (by rw [here]; rfl)⟩
  · have cancelled : (run 27).store.phase 0 = .cancelled := by decide +kernel
    obtain ⟨x, phase, recalls⟩ := recalls 27 (by decide +kernel)
    exact ⟨cancelled, recalls.written.1 (phase.symm.trans cancelled)⟩

end OneShot
