/-
# OneShot.Proofs.Roster -- what a registry says, at every moment of every run

Two things tell how a sink has ended: a flag that is set by the call that wins, and the
registry that holds the outcome.  They agree (`Sound.ends_alike`), so a consumer that hears of
the end finds its sink ended, with the outcome that it is hearing (`Sound.closed_in_turn`).

An open registry is the roster of its sink: who was admitted to it, acknowledged and not
cancelled, in the order in which the acknowledgments returned (`Sound.roster`).  The sink
numbers its handles in the order of the calls that subscribe them, so their numbers differ as
long as its counter has not gone once round (`Machine.numbered_steps`).

`registry_is_roster` is all of it, and `registry_is_roster_no_further` says where it ends: what a
caller tells a gate by itself, and the call after which the counter of a sink is at zero.
-/
import Mathlib.Data.List.Perm.Basic
import OneShot.Proofs.Order
import OneShot.Proofs.Release

namespace OneShot

set_option autoImplicit false

variable {α ε : Type}

/-! ## The order of admission -/

/-- The handle that a call subscribes to this sink. -/
def Event.admits? (s : SinkRef) : Event α ε → Option HandleRef
  | subscribing s' h => if s' = s then some h else none
  | _ => none

/-- The handles that were subscribed to a sink, in the order of the calls. -/
def admitted (s : SinkRef) (history : List (Event α ε)) : List HandleRef :=
  history.filterMap (Event.admits? s)

theorem admitted_append (s : SinkRef) (before after : List (Event α ε)) :
    admitted s (before ++ after) = admitted s before ++ admitted s after :=
  List.filterMap_append

theorem mem_admitted {s : SinkRef} {h : HandleRef} {history : List (Event α ε)} :
    h ∈ admitted s history ↔ .subscribing s h ∈ history := by
  simp only [admitted, List.mem_filterMap]
  constructor
  · rintro ⟨event, member, admits⟩
    cases event <;> simp_all [Event.admits?]
  · exact fun member => ⟨_, member, by simp [Event.admits?]⟩

/-- Nobody is admitted by what bears on one handle. -/
theorem admitted_of_isOf {h : HandleRef} {events : List (Event α ε)}
    (own : ∀ event ∈ events, event.isOf h = true) (s : SinkRef) : admitted s events = [] := by
  apply List.filterMap_eq_nil_iff.2
  intro event member
  have alone := own event member
  cases event <;> simp_all [Event.isOf, Event.admits?]

theorem admitted_of_aside {events : List (Event α ε)}
    (aside : ∀ event ∈ events, event.isAside = true) (s : SinkRef) : admitted s events = [] :=
  admitted_of_isOf (h := 0) (fun event member => Event.isOf_of_isAside (aside event member) 0) s

/-! ## Counters and numbers -/

/-- What a handle is given when it is made, and keeps. -/
def Handle.mark (x : Handle α ε) : SinkRef × HandleId := (x.sink, x.id)

namespace Store

/-- Sinks keep their counters, and handles their sink and their number. -/
structure Counts (st st' : Store α ε) : Prop where
  counters : ∀ s : SinkRef, st'.sinks[s]?.map Sink.nextId = st.sinks[s]?.map Sink.nextId
  marks : ∀ h : HandleRef, st'.handles[h]?.map Handle.mark = st.handles[h]?.map Handle.mark

namespace Counts

variable {st st' st'' : Store α ε}

theorem refl (st : Store α ε) : st.Counts st := ⟨fun _ => rfl, fun _ => rfl⟩

theorem trans (first : st.Counts st') (second : st'.Counts st'') : st.Counts st'' :=
  ⟨fun s => (second.counters s).trans (first.counters s),
    fun h => (second.marks h).trans (first.marks h)⟩

theorem of_eq (sinks : st'.sinks = st.sinks) (handles : st'.handles = st.handles) :
    st.Counts st' :=
  ⟨fun s => by rw [sinks], fun h => by rw [handles]⟩

end Counts

variable (st : Store α ε)

theorem modifyHandle_counts (h : HandleRef) {f : Handle α ε → Handle α ε}
    (keep : ∀ x, (f x).mark = x.mark) : st.Counts (st.modifyHandle h f) := by
  refine ⟨fun _ => rfl, ?_⟩
  intro g
  rw [modifyHandle_handles]
  split
  · cases st.handles[g]? <;> simp [keep]
  · rfl

theorem modifySink_counts (s : SinkRef) {f : Sink α ε → Sink α ε}
    (keep : ∀ y, (f y).nextId = y.nextId) : st.Counts (st.modifySink s f) := by
  refine ⟨?_, fun _ => rfl⟩
  intro t
  rw [modifySink_sinks]
  split
  · cases st.sinks[t]? <;> simp [keep]
  · rfl

theorem unregister_counts (s : SinkRef) (h : HandleRef) : st.Counts (st.unregister s h).1 := by
  unfold unregister
  split
  · exact st.modifySink_counts s fun _ => rfl
  · exact .refl st

theorem request_counts (h : HandleRef) (n : UInt64) : st.Counts (st.request h n).store := by
  have asks := st.request_asks h n
  generalize st.request h n = e at asks ⊢
  cases asks with
  | missed | refused | again => exact .refl st
  | first | served | spoilt | empty => exact st.modifyHandle_counts h fun _ => rfl

theorem cancel_counts (h : HandleRef) : st.Counts (st.cancel h).store := by
  have cancels := st.cancel_cancels h
  generalize st.cancel h = e at cancels ⊢
  cases cancels with
  | missed | again => exact .refl st
  | first =>
      exact (st.modifyHandle_counts h (f := Handle.silence) fun _ => rfl).trans
        (unregister_counts _ _ h)

theorem terminate_counts (s : SinkRef) (o : Outcome α ε) :
    st.Counts (st.terminate s o).2.store := by
  have ends := st.terminate_ends s o
  generalize st.terminate s o = called at ends ⊢
  cases ends with
  | missed | lost => exact .refl st
  | won => exact st.modifySink_counts s fun _ => rfl

theorem deliver_counts (h : HandleRef) (o : Outcome α ε) : st.Counts (st.deliver h o).store := by
  have offers := st.deliver_offers h o
  generalize st.deliver h o = e at offers ⊢
  cases offers with
  | withheld | told | late => exact .refl st
  | fed | parked => exact st.modifyHandle_counts h fun _ => rfl

theorem enrol_counts (h : HandleRef) : st.Counts (st.enrol h).store := by
  have joined : ∀ s waiting, st.Counts (st.join h s waiting) := fun s _ =>
    st.modifySink_counts s fun _ => rfl
  have enrols := st.enrol_enrols h
  generalize st.enrol h = e at enrols ⊢
  cases enrols with
  | missed | replayed => exact .refl st
  | turnedAway => exact (joined _ _).trans (unregister_counts _ _ h)
  | joined => exact joined _ _

theorem finish_counts (h : HandleRef) (signal : Signal α ε) :
    st.Counts (st.finish h signal).store := by
  cases signal with
  | subscribed => exact st.enrol_counts h
  | next v =>
      simp only [finish]
      split <;> exact .refl st
  | complete => exact .refl st
  | error e => exact .refl st

theorem Forgets.counts {st : Store α ε} {left : Store α ε × List (Event α ε)}
    (forgets : st.Forgets left) : st.Counts left.1 := by
  refine ⟨fun s => by rw [forgets.sinks], ?_⟩
  intro h
  have same := congrArg (Option.map Handle.mark) (forgets.handles h)
  rw [Option.map_map, Option.map_map] at same
  exact same

end Store

/-- **Numbers are given in the order of admission.** -/
structure Machine.Numbered (m : Machine α ε) : Prop where
  counters : ∀ (s : SinkRef) (y : Sink α ε), m.store.sinks[s]? = some y →
    y.nextId = UInt64.ofNat ((admitted s m.history).length + 1)
  marks : ∀ (h : HandleRef) (x : Handle α ε), m.store.handles[h]? = some x →
    ∃ i, (admitted x.sink m.history)[i]? = some h ∧ x.id = ⟨UInt64.ofNat (i + 1)⟩
  unfounded : ∀ s : SinkRef, m.store.sinks[s]? = none → admitted s m.history = []

namespace Machine.Numbered

variable {m : Machine α ε}

theorem undergo (numbered : m.Numbered) {e : Effect α ε} (counts : m.store.Counts e.store)
    (mute : ∀ s, admitted s e.events = []) : (m.undergo e).Numbered := by
  have same : ∀ s, admitted s (m.undergo e).history = admitted s m.history := by
    intro s
    rw [undergo_history, admitted_append, mute, List.append_nil]
  refine ⟨?_, ?_, ?_⟩
  · intro s y found
    have counter := counts.counters s
    rw [undergo_store] at found
    rw [found, Option.map_some, eq_comm, Option.map_eq_some_iff] at counter
    obtain ⟨y', old, eq⟩ := counter
    rw [← eq, same]
    exact numbered.counters s y' old
  · intro h x found
    have mark := counts.marks h
    rw [undergo_store] at found
    rw [found, Option.map_some, eq_comm, Option.map_eq_some_iff] at mark
    obtain ⟨x', old, eq⟩ := mark
    obtain ⟨home, id⟩ : x'.sink = x.sink ∧ x'.id = x.id := by simpa [Handle.mark] using eq
    rw [← id, ← home, same]
    exact numbered.marks h x' old
  · intro s absent
    have counter := counts.counters s
    rw [undergo_store] at absent
    rw [absent, Option.map_none, eq_comm, Option.map_eq_none_iff] at counter
    rw [same]
    exact numbered.unfounded s counter

theorem behind (numbered : m.Numbered) : m.behind.Numbered :=
  ⟨numbered.counters, numbered.marks, numbered.unfounded⟩

/-- A sink that is new has admitted nobody. -/
theorem founding (numbered : m.Numbered) {st : Store α ε} {label : String}
    (sinks : st.sinks = m.store.sinks ++ [Sink.ofLabel label])
    (handles : st.handles = m.store.handles) : (m.undergo (.quiet st)).Numbered := by
  have same : (m.undergo (.quiet st)).history = m.history := by simp [Effect.quiet]
  refine ⟨?_, ?_, ?_⟩
  · intro s y found
    rw [same]
    rw [undergo_store, Effect.quiet, sinks, getElem?_snoc] at found
    split at found
    · rename_i last
      obtain rfl := Option.some.inj found
      rw [numbered.unfounded s (by rw [last]; exact List.getElem?_eq_none (Nat.le_refl _))]
      rfl
    · exact numbered.counters s y found
  · intro h x found
    rw [same]
    rw [undergo_store, Effect.quiet, handles] at found
    exact numbered.marks h x found
  · intro s absent
    rw [undergo_store, Effect.quiet, sinks, getElem?_snoc] at absent
    rw [same]
    split at absent
    · cases absent
    · exact numbered.unfounded s absent

/-- Who subscribes takes the number that the counter shows. -/
theorem subscribe (numbered : m.Numbered) {s : SinkRef} (inside : s < m.store.sinks.length)
    (consumer : Consumer α ε) : (m.undergo (m.store.subscribe s consumer).2).Numbered := by
  obtain ⟨z, counter⟩ : ∃ z, m.store.sinks[s]? = some z := ⟨_, List.getElem?_eq_getElem inside⟩
  have grown : ∀ t, admitted t (m.undergo (m.store.subscribe s consumer).2).history =
      admitted t m.history ++ if t = s then [m.store.handles.length] else [] := by
    intro t
    rw [undergo_history, admitted_append]
    by_cases own : t = s
    · simp [Store.subscribe, admitted, Event.admits?, own]
    · simp [Store.subscribe, admitted, Event.admits?, own, Ne.symm own]
  have sinks : ∀ t : SinkRef, (m.store.subscribe s consumer).2.store.sinks[t]? =
      if t = s then m.store.sinks[t]?.map fun x => { x with nextId := x.nextId + 1 }
      else m.store.sinks[t]? := fun t => m.store.modifySink_sinks s _ t
  refine ⟨?_, ?_, ?_⟩
  · intro t y found
    rw [undergo_store, sinks] at found
    rw [grown]
    split at found
    · rename_i own
      subst own
      rw [counter, Option.map_some] at found
      rw [← Option.some.inj found, if_pos rfl, numbered.counters t z counter]
      simp [UInt64.ofNat_add]
    · rename_i other
      rw [if_neg other, List.append_nil]
      exact numbered.counters t y found
  · intro h x found
    have made : (m.store.subscribe s consumer).2.store.handles[h]? =
        if h = m.store.handles.length then some (Handle.new s ⟨z.nextId⟩ consumer)
        else m.store.handles[h]? := by
      have snoc := getElem?_snoc m.store.handles (Handle.new s ⟨z.nextId⟩ consumer) h
      simpa [Store.subscribe, counter] using snoc
    rw [undergo_store, made] at found
    rw [grown]
    split at found
    · rename_i new
      obtain rfl := Option.some.inj found
      refine ⟨(admitted s m.history).length, ?_, ?_⟩
      · simp [Handle.new, new]
      · simp [Handle.new, numbered.counters s z counter]
    · obtain ⟨i, at_, id⟩ := numbered.marks h x found
      refine ⟨i, ?_, id⟩
      rw [List.getElem?_append_left (List.getElem?_eq_some_iff.1 at_).1]
      exact at_
  · intro t absent
    rw [undergo_store, sinks] at absent
    rw [grown]
    split at absent
    · rename_i own
      rw [own, counter] at absent
      cases absent
    · rename_i other
      rw [if_neg other, List.append_nil]
      exact numbered.unfounded t absent

end Machine.Numbered

/-- What steps and consumers do gives numbers in order. -/
theorem Deed.numbered {m : Machine α ε} {may : SinkRef → Prop} {e : Effect α ε}
    (deed : Deed m.store may e) (numbered : m.Numbered) (ok : m.store.Coherent) :
    (m.undergo e).Numbered := by
  generalize same : m.store = st at deed
  induction deed generalizing m with
  | aside sinks handles _ events _ =>
      subst same
      exact numbered.undergo (.of_eq sinks handles) (admitted_of_aside events)
  | founding label sinks handles names =>
      subst same
      exact numbered.founding sinks handles
  | @subscribing st' beside s named consumer =>
      subst same
      have moved : ({ m with store := st' } : Machine α ε).Numbered :=
        ⟨beside.sinks ▸ numbered.counters, beside.handles ▸ numbered.marks,
          beside.sinks ▸ numbered.unfounded⟩
      exact moved.subscribe (by rw [beside.sinks]; exact ok.named s named) consumer
  | @ending s named allowed o =>
      subst same
      refine numbered.undergo (m.store.terminate_counts s o) fun t => ?_
      have ends := m.store.terminate_ends s o
      generalize m.store.terminate s o = called at ends ⊢
      cases ends <;> rfl
  | @requesting st' beside h n =>
      subst same
      exact numbered.undergo
        ((Store.Counts.of_eq beside.sinks beside.handles).trans (st'.request_counts h n))
        (admitted_of_isOf fun event member => (st'.request_told h n event member).1)
  | cancelling h =>
      subst same
      exact numbered.undergo (m.store.cancel_counts h)
        (admitted_of_isOf fun event member => (m.store.cancel_told h event member).1)
  | after told deed ih =>
      rw [Machine.undergo_after]
      exact ih (numbered.undergo (e := ⟨m.store, _, []⟩) (.refl _) (admitted_of_aside told)) ok same
  | followedBy left mute deed ih =>
      rw [Machine.undergo_followedBy]
      exact ih (numbered.undergo (e := ⟨m.store, [], _⟩) (.refl _) fun _ => rfl) ok same

namespace Machine

variable {m : Machine α ε}

theorem numbered_step (sound : Sound m) (numbered : m.Numbered) : m.step.Numbered := by
  have ok := sound.coherent
  cases turn : m.agenda with
  | nil => rwa [step_nil turn]
  | cons t rest =>
      have still : ∀ {e : Effect α ε} {h : HandleRef}, m.store.Counts e.store →
          (∀ event ∈ e.events, event.isOf h = true) → (m.behind.undergo e).Numbered :=
        fun counts own => numbered.behind.undergo counts (admitted_of_isOf own)
      have turned : ∀ {e : Effect α ε} {h : HandleRef} {first : Event α ε},
          m.store.Counts e.store → m.store.Turned first e → first.isOf h = true →
          (m.behind.undergo e).Numbered := fun {_ h _} counts turned own =>
        still (h := h) counts (turned.each own fun event aside => Event.isOf_of_isAside aside h)
      have forgets : ∀ {left : Store α ε × List (Event α ε)}, m.store.Forgets left →
          (m.behind.undergo ⟨left.1, left.2, []⟩).Numbered := fun forgets =>
        still (h := 0) forgets.counts (forgets.each fun _ => rfl)
      rw [step_cons turn]
      cases t with
      | perform within step =>
          have deed := m.store.perform_deed rest within step
          have begins : (m.behind.undergo ⟨m.store, [.performed within step], []⟩).Numbered :=
            numbered.behind.undergo (.refl _) fun _ => rfl
          rw [Task.effect, undergo_followedBy, undergo_after]
          exact Deed.numbered deed ⟨begins.counters, begins.marks, begins.unfounded⟩ ok
      | answer within step closing =>
          have beside := m.store.conclude_beside closing
          exact still (h := 0) (.of_eq beside.sinks beside.handles) (by simp [Task.effect, Event.isOf])
      | notify h signal =>
          cases found : m.store.handles[h]? with
          | none =>
              rw [Task.effect, Store.notify, found]
              exact still (h := h) (.refl _) (by simp [Effect.quiet])
          | some x =>
              have deed := m.store.react_deed x.consumer h signal
              have begins : (m.behind.undergo ⟨m.store, [.began h signal], []⟩).Numbered :=
                numbered.behind.undergo (.refl _) fun _ => rfl
              rw [Task.effect, Store.notify_eq found, undergo_followedBy, undergo_after]
              exact Deed.numbered deed ⟨begins.counters, begins.marks, begins.unfounded⟩ ok
      | finish h signal =>
          exact turned (h := h) (m.store.finish_counts h signal) (m.store.finish_turned h signal)
            (by simp [Event.isOf])
      | deliver h o =>
          exact turned (h := h) (m.store.deliver_counts h o) (m.store.deliver_turned h o)
            (by simp [Event.isOf])
      | letGo hs => exact forgets (m.store.letGo_forgets rest hs)
      | giveUp s => exact forgets (m.store.giveUp_forgets rest s)
      | hangUp c => exact still (h := 0) (.refl _) (by simp [Task.effect, Effect.quiet])

theorem numbered_steps (script : List (Step α ε)) (n : Nat) :
    ((load script).steps n).Numbered := by
  induction n with
  | zero =>
      refine ⟨?_, ?_, fun _ _ => rfl⟩
      · intro s y found
        simp [load, Store.empty] at found
      · intro h x found
        simp [load, Store.empty] at found
  | succ n ih =>
      rw [steps_step]
      exact numbered_step (steps_sound script n) ih

namespace Numbered

variable {h g : HandleRef} {x y : Handle α ε} {z : Sink α ε}

/-- Before the counter has gone once round, numbers run from one up to it. -/
theorem number (numbered : m.Numbered) (found : m.store.handles[h]? = some x)
    (few : (admitted x.sink m.history).length < UInt64.size) :
    ∃ i, (admitted x.sink m.history)[i]? = some h ∧ x.id.number.toNat = i + 1 ∧
      i < (admitted x.sink m.history).length := by
  obtain ⟨i, at_, id⟩ := numbered.marks h x found
  have lt := (List.getElem?_eq_some_iff.1 at_).1
  refine ⟨i, at_, ?_, lt⟩
  rw [id, UInt64.toNat_ofNat']
  exact Nat.mod_eq_of_lt (Nat.lt_of_le_of_lt lt few)

theorem apart (numbered : m.Numbered) (first : m.store.handles[h]? = some x)
    (second : m.store.handles[g]? = some y) (home : y.sink = x.sink)
    (few : (admitted x.sink m.history).length < UInt64.size) (same : x.id = y.id) : h = g := by
  obtain ⟨i, at_i, number_i, -⟩ := numbered.number first few
  obtain ⟨j, at_j, number_j, -⟩ := numbered.number second (home ▸ few)
  have eq : i = j := by rw [same, number_j] at number_i; omega
  rw [home, ← eq, at_i] at at_j
  exact Option.some.inj at_j

theorem below (numbered : m.Numbered) (found : m.store.handles[h]? = some x)
    (counter : m.store.sinks[x.sink]? = some z)
    (few : (admitted x.sink m.history).length + 1 < UInt64.size) : x.id.number < z.nextId := by
  obtain ⟨i, -, number, lt⟩ := numbered.number found (Nat.lt_of_succ_lt few)
  rw [UInt64.lt_iff_toNat_lt, number, numbered.counters _ z counter, UInt64.toNat_ofNat',
    Nat.mod_eq_of_lt few]
  omega

end Numbered

end Machine

/-! ## The roster -/

/-- Who was admitted to a sink, acknowledged and not cancelled, in the order in which the
acknowledgments returned. -/
def roster (s : SinkRef) (history : List (Event α ε)) : List HandleRef :=
  (greeted history).filter fun h =>
    (admitted s history).contains h && !history.any (Event.isCancel h)

theorem mem_roster {s : SinkRef} {h : HandleRef} {history : List (Event α ε)} :
    h ∈ roster s history ↔
      h ∈ greeted history ∧ .subscribing s h ∈ history ∧ .cancelling h ∉ history := by
  have kept : (!history.any (Event.isCancel h)) = true ↔ .cancelling h ∉ history := by
    rw [Bool.not_eq_true', ← Bool.not_eq_true]
    exact not_congr Ledger.renounced_iff
  rw [roster, List.mem_filter, Bool.and_eq_true, kept, List.contains_iff_mem, mem_admitted]

/-- Past its acknowledgment, a callback that is due or running tells of the outcome that the
sink holds. -/
theorem Course.informing {h : HandleRef} {place : Place α ε} {asked renounced : Bool}
    {offers : List (Outcome α ε)} {heard : List (Event α ε)} {signal : Signal α ε} {t : Task α ε}
    (course : Course h place asked renounced offers heard [t])
    (turn : t = .notify h signal ∨ t = .finish h signal) (past : signal ≠ .subscribed) :
    ∃ o told later, place = .closed o ∧ o.signals = told ++ signal :: later ∧
      heard = inTurn h told ++ if t.isNotify then [] else [.began h signal] := by
  cases course with
  | summoned | greeting => simp_all
  | offered => simp at turn
  | @due o told later signal' closed script =>
      obtain rfl : signal' = signal := by simpa using turn
      exact ⟨o, told, later, closed, script, by simp [Task.isNotify]⟩
  | @hearing o told later signal' closed script =>
      obtain rfl : signal' = signal := by simpa using turn
      exact ⟨o, told, later, closed, script, by simp [Task.isNotify]⟩

namespace Sound

variable {m : Machine α ε} {s : SinkRef} {h : HandleRef}

/-- **Flag and registry say the same.** -/
theorem ends_alike (sound : Sound m) (s : SinkRef) :
    m.store.flag s = (m.store.registry s).termination ∧
      (m.store.flag s ≠ .pending ↔ ∃ o, m.store.registry s = .frozen o) := by
  have tenure := sound.tenure s
  generalize m.store.flag s = flag, attempts s m.history = calls at tenure ⊢
  cases registry : m.store.registry s with
  | live hs =>
      rw [registry] at tenure
      cases tenure
      exact ⟨rfl, by simp⟩
  | frozen o =>
      rw [registry] at tenure
      cases tenure
      exact ⟨rfl, fun _ => ⟨o, rfl⟩, fun _ => o.termination_ne_pending⟩

/-- **Who hears of the end finds its sink ended**, with the outcome that it is hearing. -/
theorem closed_in_turn (sound : Sound m) {x : Handle α ε} (found : m.store.handles[h]? = some x)
    {signal : Signal α ε} (past : signal ≠ .subscribed) :
    (.notify h signal ∈ m.agenda → ∃ o told later, m.store.registry x.sink = .frozen o ∧
      o.signals = told ++ signal :: later ∧ callbacks h m.history = inTurn h told) ∧
    ((callbacks h m.history).getLast? = some (.began h signal) →
      ∃ o told later, m.store.registry x.sink = .frozen o ∧
        o.signals = told ++ signal :: later ∧
        callbacks h m.history = inTurn h told ++ [.began h signal]) := by
  have course : Course h _ _ _ _ (callbacks h m.history) _ :=
    (sound.standing h x (by simp) found).course
  have frozen : ∀ {o}, (m.store.registry x.sink).place h = .closed o →
      m.store.registry x.sink = .frozen o := fun closed =>
    Registry.outcome?_eq_some.1 (Registry.place_eq_closed.1 closed)
  constructor
  · intro due
    have pending : .notify h signal ∈ m.pending h :=
      List.mem_filter.2 ⟨due, Task.notify_concerns h signal⟩
    cases turns : m.pending h with
    | nil =>
        rw [turns] at pending
        cases pending
    | cons t rest =>
        rw [turns] at course pending
        obtain rfl := course.pending_of_cons
        obtain rfl := List.mem_singleton.1 pending
        obtain ⟨o, told, later, closed, script, heard⟩ := course.informing (.inl rfl) past
        exact ⟨o, told, later, frozen closed, script, by simpa [Task.isNotify] using heard⟩
  · intro open_
    rw [course.of_open open_] at course
    obtain ⟨o, told, later, closed, script, heard⟩ := course.informing (.inr rfl) past
    exact ⟨o, told, later, frozen closed, script, by simpa [Task.isNotify] using heard⟩

/-- **An open registry is the roster of its sink.** -/
theorem roster (sound : Sound m) (ranked : m.Ranked) {hs : List HandleRef}
    (open_ : m.store.registry s = .live hs) : hs = OneShot.roster s m.history := by
  have order := ranked.order s
  rw [open_] at order
  have inside : (OneShot.roster s m.history).Sublist (greeted m.history) := List.filter_sublist
  apply (ranked.once.perm_iff_eq_of_sublist order inside).1
  refine (List.perm_ext_iff_of_nodup (order.nodup ranked.once) (inside.nodup ranked.once)).2 ?_
  intro h
  show h ∈ hs ↔ _
  rw [sound.waiting_iff open_, mem_roster]
  exact ⟨fun ⟨made, back, kept⟩ => ⟨back, made, kept⟩, fun ⟨back, made, kept⟩ => ⟨made, back, kept⟩⟩

/-- Who waits in a registry has been offered nothing, and is not cancelled. -/
theorem waits_without_value (sound : Sound m) (waits : h ∈ (m.store.registry s).handles) :
    ∃ x, m.store.handles[h]? = some x ∧ x.sink = s ∧ (x.phase = .idle ∨ x.phase = .requested) := by
  obtain ⟨x, found, rfl⟩ := sound.coherent.enrolled s h waits
  have stands := sound.standing h x (by simp) found
  have course := stands.course
  rw [Registry.place_eq_waiting.2 waits] at course
  have kept : (Ledger.of h m.history).renounced = false := by
    have early : ∀ o : Outcome α ε, (Place.waiting : Place α ε) ≠ .closed o := by simp
    exact ((course.waits early).1 rfl).2
  refine ⟨x, found, rfl, ?_⟩
  rw [stands.phase, course.of_waiting.1, kept]
  cases (Ledger.of h m.history).asked <;> simp [Phase.of]

end Sound

/-! ## The result -/

namespace Store

/-- What the looks at a sink answer, at any moment and from anywhere. -/
def Shows (st : Store α ε) (s : SinkRef) (t : Termination) (o : Option (Outcome α ε))
    (subscribers : Nat) : Prop :=
  ∀ agenda within sink, st.sink? sink = some s →
    st.perform agenda within (.termination sink) = st.settle (.termination t) ∧
      st.perform agenda within (.outcome sink) = st.settle (.outcome o) ∧
      st.perform agenda within (.count sink) = st.settle (.count subscribers)

theorem shows_registry (st : Store α ε) (s : SinkRef) :
    st.Shows s (st.registry s).termination (st.registry s).outcome?
      (st.registry s).handles.length := by
  intro agenda within sink found
  simp [perform, with?, found]

end Store

/-- **What a registry says of its sink**, at every moment of every run.

* The flag of a sink is away from pending if and only if its registry is frozen.  It is then the
  termination of the outcome that the registry holds; every look at the sink shows that
  termination and that outcome, and no subscribers.
* A consumer about to hear anything but its acknowledgment, or hearing it, finds its sink frozen.
  What it has heard so far is the beginning of what the outcome there has to say, and what it
  hears now comes next.
* An open registry has the handles that were subscribed to the sink, acknowledged and not
  cancelled, each once and in the order in which the acknowledgments returned.  None of them has
  a value.  Looks at the sink show that it is pending, and how many they are.
* The counter of a sink is one ahead of the calls that have subscribed to it.  As long as these
  are fewer than `UInt64.size`, the numbers of its handles differ, and lie between zero and one
  more than the calls; and they are below the counter as long as it can hold that. -/
theorem registry_is_roster (script : List (Step α ε)) (n : Nat) (s : SinkRef) :
    let m := (Machine.load script).steps n
    let calls := (admitted s m.history).length
    (m.store.flag s ≠ .pending ↔ ∃ o, m.store.registry s = .frozen o) ∧
      (∀ o, m.store.registry s = .frozen o →
        m.store.flag s = o.termination ∧ m.store.Shows s o.termination (some o) 0) ∧
      (∀ (h : HandleRef) (x : Handle α ε) signal, m.store.handles[h]? = some x → x.sink = s →
        signal ≠ .subscribed →
        (.notify h signal ∈ m.agenda → ∃ o told later, m.store.registry s = .frozen o ∧
          o.signals = told ++ signal :: later ∧ callbacks h m.history = inTurn h told) ∧
        ((callbacks h m.history).getLast? = some (.began h signal) →
          ∃ o told later, m.store.registry s = .frozen o ∧
            o.signals = told ++ signal :: later ∧
            callbacks h m.history = inTurn h told ++ [.began h signal])) ∧
      (∀ hs, m.store.registry s = .live hs →
        hs = roster s m.history ∧ hs.Nodup ∧ m.store.Shows s .pending none hs.length ∧
        ∀ h ∈ hs, ∃ x, m.store.handles[h]? = some x ∧ x.sink = s ∧
          (x.phase = .idle ∨ x.phase = .requested)) ∧
      (∀ y : Sink α ε, m.store.sinks[s]? = some y → y.nextId = UInt64.ofNat (calls + 1)) ∧
      (calls < UInt64.size → ∀ (h : HandleRef) (x : Handle α ε), m.store.handles[h]? = some x →
        x.sink = s →
        (∀ (g : HandleRef) (y : Handle α ε), m.store.handles[g]? = some y → y.sink = s → x.id = y.id → h = g) ∧
        0 < x.id.number.toNat ∧ x.id.number.toNat < calls + 1 ∧
        (calls + 1 < UInt64.size → ∀ y : Sink α ε, m.store.sinks[s]? = some y →
          x.id.number < y.nextId)) := by
  intro m calls
  have sound : Sound m := Machine.steps_sound script n
  have ranked : m.Ranked := Machine.ranked_steps script n
  have numbered : m.Numbered := Machine.numbered_steps script n
  obtain ⟨agree, ended⟩ := sound.ends_alike s
  have shows := m.store.shows_registry s
  refine ⟨ended, ?_, ?_, ?_, numbered.counters s, ?_⟩
  · intro o frozen
    rw [frozen] at agree shows
    exact ⟨agree, shows⟩
  · rintro h x signal found rfl past
    exact sound.closed_in_turn found past
  · intro hs open_
    have waits : ∀ h ∈ hs, _ := fun h member => sound.waits_without_value (s := s) (h := h)
      (by rw [open_]; exact member)
    rw [open_] at shows
    exact ⟨sound.roster ranked open_, sound.coherent.once open_, shows, waits⟩
  · rintro few h x found rfl
    obtain ⟨i, -, number, lt⟩ := numbered.number found few
    refine ⟨fun g y found' home same => numbered.apart found found' home few same, ?_, ?_, ?_⟩
    · omega
    · show x.id.number.toNat < (admitted x.sink m.history).length + 1
      omega
    · exact fun more y counter => numbered.below found counter more

/-- The callback that an event begins. -/
def Event.began? : Event α ε → Option (HandleRef × Signal α ε)
  | began h signal => some (h, signal)
  | _ => none

/-- A consumer subscribes another one while it is acknowledged, and a third one cancels then; the
inner one hears the value, and finds its sink ended with it. -/
theorem registry_is_roster_nested :
    let script : List (Step Nat Nat) :=
      [.newSink none, .subscribe 0 [] [] [] [],
        .subscribe 0 [.subscribe 0 [.request .own 1] [.outcome 0] [] []] [] [] [],
        .subscribe 0 [.cancel .own] [] [] [], .succeed 0 (some 7)]
    ((Machine.load script).steps 32).store.registry 0 = .live [0, 2, 1] ∧
      roster 0 ((Machine.load script).steps 32).history = [0, 2, 1] ∧
      ((Machine.load script).steps 32).store.Shows 0 .pending none 3 ∧
      (admitted 0 ((Machine.load script).steps 32).history).length = 4 ∧
      (∃ (x : Handle Nat Nat) (y : Sink Nat Nat),
        ((Machine.load script).steps 32).store.handles[2]? = some x ∧
        ((Machine.load script).steps 32).store.sinks[0]? = some y ∧
        x.id.number = 3 ∧ x.id.number < y.nextId) ∧
      (callbacks 2 ((Machine.load script).steps 36).history).getLast? =
        some (.began 2 (.next 7)) ∧
      ((Machine.load script).steps 36).store.registry 0 = .frozen (.value 7) ∧
      ((Machine.load script).steps 36).store.Shows 0 .succeeded (some (.value 7)) 0 := by
  intro script
  obtain ⟨-, -, -, open_, -, numbers⟩ := registry_is_roster script 32 0
  obtain ⟨-, frozen, inside, -⟩ := registry_is_roster script 36 0
  have live : ((Machine.load script).steps 32).store.registry 0 = .live [0, 2, 1] := by
    decide +kernel
  have calls : (admitted 0 ((Machine.load script).steps 32).history).length = 4 := by
    decide +kernel
  have hears : (callbacks 2 ((Machine.load script).steps 36).history).getLast? =
      some (.began 2 (.next 7)) := by
    have last : ((callbacks 2 ((Machine.load script).steps 36).history).getLast?.bind
        Event.began?) = some (2, .next 7) := by decide +kernel
    obtain ⟨event, is_last, begins⟩ := Option.bind_eq_some_iff.1 last
    cases event with
    | began h signal =>
        cases begins
        exact is_last
    | _ => cases begins
  obtain ⟨x, inner⟩ : ∃ x, ((Machine.load script).steps 36).store.handles[2]? = some x :=
    Option.isSome_iff_exists.1 (by decide +kernel)
  have home : (((Machine.load script).steps 36).store.handles[2]?.map Handle.sink) = some 0 := by
    decide +kernel
  rw [inner, Option.map_some, Option.some.injEq] at home
  obtain ⟨y, made⟩ : ∃ y, ((Machine.load script).steps 32).store.sinks[0]? = some y :=
    Option.isSome_iff_exists.1 (by decide +kernel)
  obtain ⟨listed, -, shows, waits⟩ := open_ _ live
  obtain ⟨z, waiting, at_home, -⟩ := waits 2 (by decide)
  have third : (((Machine.load script).steps 32).store.handles[2]?.map fun z => z.id.number) =
      some 3 := by decide +kernel
  rw [waiting, Option.map_some, Option.some.injEq] at third
  obtain ⟨-, -, -, below⟩ := numbers (by rw [calls]; decide) 2 z waiting at_home
  obtain ⟨o, told, later, ended, order, -⟩ := (inside 2 x (.next 7) inner home (by simp)).2 hears
  obtain rfl : o = .value 7 := by
    cases o with
    | value v =>
        have member : .next 7 ∈ (Outcome.value v : Outcome Nat Nat).signals := by
          rw [order]
          exact List.mem_append_right _ List.mem_cons_self
        simpa [Outcome.signals, eq_comm] using member
    | _ =>
        have member := congrArg (fun signals => Signal.next 7 ∈ signals) order
        simp [Outcome.signals] at member
  exact ⟨live, listed.symm, shows, calls,
    ⟨z, y, waiting, made, third, below (by rw [calls]; decide) y made⟩, hears, ended,
    (frozen _ ended).2⟩

/-! ## Where it ends -/

/-- A pending sink at which `n` handles wait, none of which was cancelled. -/
structure Machine.Crowded (m : Machine α ε) (n : Nat) : Prop where
  open_ : ∃ y, m.store.sinks = [y] ∧ y.registry = .live (List.range n)
  named : m.store.slots.sinks = [some 0]
  made : m.store.handles.length = n
  calls : (admitted 0 m.history).length = n

namespace Machine.Crowded

variable {m : Machine α ε} {n : Nat}

/-- One more script without hooks joins in. -/
theorem join (crowded : m.Crowded n) {rest : List (Task α ε)}
    (turn : m.agenda = .perform none (.subscribe 0 [] [] [] []) :: rest) :
    (m.steps 6).Crowded (n + 1) ∧ (m.steps 6).agenda = rest := by
  obtain ⟨⟨y, sinks, open_⟩, named, made, calls⟩ := crowded
  obtain ⟨st, agenda, past⟩ := m
  simp only at sinks named made turn
  subst turn
  have found : st.sink? 0 = some 0 := by simp [Store.sink?, Store.slot?, named]
  -- the call, the callback, its end, the two references that the call has held, the answer
  simp only [Machine.steps, Machine.step]
  simp [Task.effect, Store.perform, Store.with?, found, named,
    Store.subscribe, Store.addSub, Store.modifySlots, Store.modifySink, sinks, Store.notify,
    Store.acknowledge, Store.runHook, Effect.after, Effect.followedBy, Store.finish, Store.enrol,
    Store.registry, open_, Handle.new, Store.letGo, Store.release, Store.alive, Store.owned,
    Store.referenced, Store.names, Registry.handles, Store.giveUp, Store.conclude, made]
  refine ⟨⟨_, rfl, ?_⟩, rfl, by simp [made], ?_⟩
  · rw [List.range_succ]
  · simp only [Machine.history, List.reverse_cons, List.append_assoc, admitted_append,
      List.length_append] at calls ⊢
    rw [calls]
    rfl

/-- Any number of them join in, one after the other. -/
theorem joins (crowded : m.Crowded n) {k : Nat}
    (turn : m.agenda = List.replicate k (.perform none (.subscribe 0 [] [] [] []))) :
    ∃ i, (m.steps i).Crowded (n + k) ∧ (m.steps i).agenda = [] := by
  induction k generalizing m n with
  | zero => exact ⟨0, crowded, turn⟩
  | succ k ih =>
      obtain ⟨more, left⟩ := crowded.join turn
      obtain ⟨i, last, done⟩ := ih more left
      refine ⟨6 + i, ?_, ?_⟩
      · rw [steps_add, show n + (k + 1) = n + 1 + k by omega]
        exact last
      · rw [steps_add]
        exact done

end Machine.Crowded

/-- As many wait at a new sink as a script of such steps makes. -/
theorem Machine.load_crowded (k : Nat) :
    ∃ i, let m := (load (.newSink none :: List.replicate k (.subscribe 0 [] [] [] [])) :
        Machine α ε).steps i
      m.Crowded k ∧ m.agenda = [] := by
  have founded : ((load (.newSink none :: List.replicate k (.subscribe 0 [] [] [] [])) :
      Machine α ε).steps 2).Crowded 0 := by
    refine ⟨⟨Sink.ofLabel Sink.standardLabel, rfl, rfl⟩, rfl, rfl, rfl⟩
  have left : ((load (.newSink none :: List.replicate k (.subscribe 0 [] [] [] [])) :
      Machine α ε).steps 2).agenda =
        List.replicate k (.perform none (.subscribe 0 [] [] [] [])) :=
    List.map_replicate
  obtain ⟨i, crowded, closed⟩ := founded.joins left
  rw [← steps_add] at crowded closed
  exact ⟨2 + i, by rwa [Nat.zero_add] at crowded, closed⟩

/-- One call before the counter has counted `UInt64.size` of them, it is at zero. -/
theorem Machine.Crowded.come_round {m : Machine α ε} {n : Nat} (crowded : m.Crowded n)
    (last : n + 1 = UInt64.size) (sound : Sound m) (numbered : m.Numbered) :
    (admitted 0 m.history).length < UInt64.size ∧
      ∃ (hs : List HandleRef) (h : HandleRef) (x : Handle α ε) (y : Sink α ε),
        m.store.registry 0 = .live hs ∧ h ∈ hs ∧ m.store.handles[h]? = some x ∧ x.sink = 0 ∧
          m.store.sinks[0]? = some y ∧ ¬ x.id.number < y.nextId := by
  obtain ⟨⟨y, sinks, open_⟩, -, -, calls⟩ := crowded
  have many : 1 < UInt64.size := by decide
  have counter : m.store.sinks[0]? = some y := by rw [sinks]; rfl
  have round : y.nextId = 0 := by
    rw [numbered.counters 0 y counter, calls, last]
    rfl
  rw [← m.store.registry_of_sinks counter] at open_
  have waits : 0 ∈ List.range n := List.mem_range.2 (by omega)
  obtain ⟨x, found, home⟩ := sound.coherent.enrolled 0 0 (by rw [open_]; exact waits)
  refine ⟨by omega, _, 0, x, y, open_, waits, found, home, counter, ?_⟩
  rw [round]
  exact UInt64.not_lt_zero

/-- **No more can be said of a registry.**

* A gate in hand, of which the sink has a copy, can be called past the sink: it hears of an end
  while its sink is pending.
* The counter of a sink has 64 bits.  When it has counted all but one of the calls that it can
  count, the numbers differ still, but it has come round to zero, and no number is below it. -/
theorem registry_is_roster_no_further :
    (let m := (Machine.load [.newSink none, .gate 0, .signalGate 0 .complete] :
        Machine Nat Nat).steps 9;
      m.store.handles.map (fun x => (x.sink, x.consumer.target?)) = [(0, some (.gate 0))] ∧
        .direct (.gate 0) .complete ∈ m.step.history ∧ m.step.store.flag 0 = .pending ∧
        m.step.store.registry 0 = .live [0]) ∧
      ∃ n, let m := (Machine.load (.newSink none ::
            List.replicate (UInt64.size - 1) (.subscribe 0 [] [] [] [])) : Machine Nat Nat).steps n
        m.agenda = [] ∧ (admitted 0 m.history).length < UInt64.size ∧
          ∃ (hs : List HandleRef) (h : HandleRef) (x : Handle Nat Nat) (y : Sink Nat Nat),
            m.store.registry 0 = .live hs ∧ h ∈ hs ∧ m.store.handles[h]? = some x ∧ x.sink = 0 ∧
              m.store.sinks[0]? = some y ∧ ¬ x.id.number < y.nextId := by
  constructor
  · exact ⟨by decide +kernel, mem_directs.1 (by decide +kernel), by decide +kernel,
      by decide +kernel⟩
  · obtain ⟨n, crowded, closed⟩ := @Machine.load_crowded Nat Nat (UInt64.size - 1)
    obtain ⟨few, past⟩ := crowded.come_round rfl (Machine.steps_sound _ n)
      (Machine.numbered_steps _ n)
    exact ⟨n, closed, few, past⟩

end OneShot
