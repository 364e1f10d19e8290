/-
# OneShot.Proofs.Journal.Writing -- every step writes down what it does

A store is *logged* by a history if the log of the history tells a story of each handle and
accounts for the registry of each sink (`Store.Logged`).  Calls of the library keep that: each
has its lemma here, and what is done to one handle comes down to `Logged.settle`.

Steps and consumers make such calls, and besides write nothing that tells of a handle or counts
for a sink (`Writes`).  So every step of a machine keeps it (`Sound.logged_step`), and every
machine that a script reaches is logged (`Machine.logged_steps`).
-/
import OneShot.Proofs.Journal.Tale

namespace OneShot

set_option autoImplicit false

variable {α ε : Type}

/-! ## Events that the log leaves out -/

/-- The entry tells of no handle, and counts for no sink. -/
def Notice.isIdle : Notice → Bool
  | ignored _ _ _ | zeroDemand _ | suppressed _ | errorUnheard | channelFull _ | receiverGone _
  | gateClosed _ => true
  | _ => false

/-- The event makes no entry but an idle one, and brings no acknowledgment back. -/
def Event.isMute : Event α ε → Bool
  | noticed notice => notice.isIdle
  | ended _ .subscribed => false
  | _ => true

section Mute

variable {events : List (Event α ε)} (mute : ∀ event ∈ events, event.isMute = true)
include mute

theorem idle_of_mute : ∀ entry ∈ log events, entry.isIdle = true := by
  intro entry member
  exact mute _ (mem_log.1 member)

theorem tale_of_mute (h : HandleRef) : tale h events = [] := by
  refine List.filter_eq_nil_iff.2 fun entry member => ?_
  have idle := idle_of_mute mute entry member
  cases entry <;> simp_all [Notice.isIdle, Notice.tellsOf]

theorem uncounted_of_mute (s : SinkRef) : ∀ entry ∈ log events, entry.countsFor s = false := by
  intro entry member
  have idle := idle_of_mute mute entry member
  cases entry <;>
    simp_all [Notice.isIdle, Notice.countsFor]

theorem ungreeted_of_mute : greeted events = [] := by
  refine List.filterMap_eq_nil_iff.2 fun event member => ?_
  have still := mute event member
  cases event with
  | ended g signal => cases signal <;> simp_all [Event.isMute, Event.greets?]
  | _ => rfl

end Mute

/-! ## Stores and their logs -/

namespace Store

/-- Registries and phases are as they were, and handles belong to the sinks they belonged to. -/
structure Unmoved (st st' : Store α ε) : Prop where
  registries : ∀ s, st'.registry s = st.registry s
  phases : ∀ h, st'.phase h = st.phase h
  homes : ∀ (h : HandleRef) (x : Handle α ε), st.handles[h]? = some x →
    ∃ y, st'.handles[h]? = some y ∧ y.sink = x.sink

namespace Unmoved

variable {st st' : Store α ε}

theorem refl (st : Store α ε) : st.Unmoved st :=
  ⟨fun _ => rfl, fun _ => rfl, fun _ x found => ⟨x, found, rfl⟩⟩

/-- All that can have changed in handles is whether they are released. -/
theorem of_memory (registries : ∀ s, st'.registry s = st.registry s)
    (handles : ∀ h : HandleRef,
      st'.handles[h]?.map Handle.memory = st.handles[h]?.map Handle.memory) : st.Unmoved st' := by
  refine ⟨registries, ?_, ?_⟩
  · intro h
    have same := congrArg (Option.map Handle.phase) (handles h)
    rw [Option.map_map, Option.map_map] at same
    exact congrArg (·.getD .idle) same
  · intro h x found
    have same := congrArg (Option.map Handle.sink) (handles h)
    rw [Option.map_map, Option.map_map, found] at same
    exact Option.map_eq_some_iff.1 same

theorem of_eq (sinks : st'.sinks = st.sinks) (handles : st'.handles = st.handles) :
    st.Unmoved st' :=
  .of_memory (fun s => by rw [registry, sinks, registry]) fun h => by rw [handles]

theorem subscribe (st : Store α ε) (s : SinkRef) (consumer : Consumer α ε) :
    st.Unmoved (st.subscribe s consumer).2.store := by
  obtain ⟨id, handles⟩ := st.subscribe_handles s consumer
  have fresh : st.handles[st.handles.length]? = none := List.getElem?_eq_none (Nat.le_refl _)
  refine ⟨st.subscribe_registry s consumer, ?_, ?_⟩
  · intro h
    rw [phase, handles, phase]
    split
    · rename_i new
      rw [new, fresh]
      rfl
    · rfl
  · intro h x found
    have old : h ≠ st.handles.length := by
      rintro rfl
      rw [fresh] at found
      cases found
    exact ⟨x, by rw [handles, if_neg old]; exact found, rfl⟩

end Unmoved

/-- The log of a history accounts for a store: of each handle it tells a story that ends where the
handle is, and the registry of each sink is what has joined it and not left. -/
structure Logged (st : Store α ε) (history : List (Event α ε)) : Prop where
  tales : ∀ h s, (∀ x, st.handles[h]? = some x → x.sink = s) →
    Story s h (h ∈ greeted history) (h ∈ (st.registry s).handles) (st.phase h) (tale h history)
  accounts : ∀ s, Balance s (st.registry s) (log history)

namespace Logged

variable {st st' : Store α ε} {history events : List (Event α ε)} {h : HandleRef}
  {x x' : Handle α ε}

theorem story (logged : st.Logged history) (found : st.handles[h]? = some x) :
    Story x.sink h (h ∈ greeted history) (h ∈ (st.registry x.sink).handles) x.phase
      (tale h history) := by
  rw [← phase_of found]
  refine logged.tales h x.sink fun y at_ => ?_
  rw [found] at at_
  exact congrArg Handle.sink (Option.some.inj at_).symm

/-- What is mute leaves the log alone. -/
theorem pass (logged : st.Logged history) (unmoved : st.Unmoved st')
    (mute : ∀ event ∈ events, event.isMute = true) : st'.Logged (history ++ events) := by
  refine ⟨?_, ?_⟩
  · intro h s home
    rw [unmoved.registries, unmoved.phases, greeted_append, ungreeted_of_mute mute, tale_append,
      tale_of_mute mute, List.append_nil, List.append_nil]
    refine logged.tales h s fun x found => ?_
    obtain ⟨y, at_, same⟩ := unmoved.homes h x found
    exact same ▸ home y at_
  · intro s
    rw [unmoved.registries, log_append]
    exact (logged.accounts s).pass (uncounted_of_mute mute s)

theorem still (logged : st.Logged history) (mute : ∀ event ∈ events, event.isMute = true) :
    st.Logged (history ++ events) :=
  logged.pass (.refl st) mute

/-- **One handle goes on in its story**, and nothing is told of others. -/
theorem settle (logged : st.Logged history) (frame : st.Frame h st')
    (found : st.handles[h]? = some x) (new : st'.handles[h]? = some x') (home : x'.sink = x.sink)
    (others : ∀ g, g ≠ h → tale g events = [] ∧ g ∉ greeted events)
    (goes : Story x.sink h (h ∈ greeted (history ++ events)) (h ∈ (st'.registry x.sink).handles)
      x'.phase (tale h history ++ tale h events))
    (accounts : ∀ s, Balance s (st'.registry s) (log history ++ log events)) :
    st'.Logged (history ++ events) := by
  refine ⟨?_, fun s => log_append history events ▸ accounts s⟩
  intro g s belongs
  rw [tale_append]
  by_cases self : g = h
  · subst self
    obtain rfl : x.sink = s := home.symm.trans (belongs x' new)
    rw [phase_of new]
    exact goes
  · obtain ⟨untold, apart⟩ := others g self
    have same := frame.handles g self
    have phase : st'.phase g = st.phase g := by rw [Store.phase, same, Store.phase]
    rw [same] at belongs
    rw [untold, List.append_nil, phase]
    refine (logged.tales g s belongs).of_iff ?_ ?_
    · rw [greeted_append, List.mem_append, or_iff_left apart]
    · rw [← Registry.place_eq_waiting, ← Registry.place_eq_waiting, frame.places g self]

/-- The same, for a handle that changes where it stands. -/
theorem settle_handle (logged : st.Logged history) (found : st.handles[h]? = some x)
    {f : Handle α ε → Handle α ε} (keep : ∀ y, (f y).sink = y.sink)
    (greets : greeted events = []) (others : ∀ g, g ≠ h → tale g events = [])
    (idle : ∀ s, ∀ entry ∈ log events, entry.countsFor s = false)
    (goes : Story x.sink h (h ∈ greeted history) (h ∈ (st.registry x.sink).handles) (f x).phase
      (tale h history ++ tale h events)) : (st.modifyHandle h f).Logged (history ++ events) := by
  have new : (st.modifyHandle h f).handles[h]? = some (f x) := by
    simp [modifyHandle_handles, found]
  refine logged.settle (st.modifyHandle_frame h f) found new (keep x)
    (fun g other => ⟨others g other, by simp [greets]⟩) ?_ fun s => ?_
  · rw [greeted_append, greets, List.append_nil]
    exact goes
  · exact (logged.accounts s).pass (idle s)

end Logged

/-! ## Demand -/

section Calls

variable {st : Store α ε} {history : List (Event α ε)} {h : HandleRef} {x : Handle α ε}

theorem request_logged (logged : st.Logged history) (h : HandleRef) (n : UInt64)
    (stocked : ∀ x, st.handles[h]? = some x → x.phase = .parked → ∃ v, x.parked = some (.value v)) :
    (st.request h n).store.Logged (history ++ (st.request h n).events) := by
  have asks := st.request_asks h n
  generalize st.request h n = e at asks ⊢
  cases asks with
  | missed => exact logged.still (by simp [Effect.quiet])
  | refused | again => exact logged.still (by simp [Event.isMute, Notice.isIdle])
  | first found on positive idle =>
      have untold : ∀ g, tale g [(.requesting h n : Event α ε)] = [] := fun _ => rfl
      have story := logged.story found
      rw [idle] at story
      refine logged.settle_handle found (fun _ => rfl) rfl (fun g _ => untold g)
        (uncounted_of_mute (by simp [Event.isMute])) ?_
      rw [untold, List.append_nil]
      exact story.ask
  | served found on positive parked slot =>
      have told : ∀ g, tale g [.requesting h n, (.noticed (.demandMet h) : Event α ε)] =
          if g = h then [.demandMet h] else [] := tale_call rfl fun _ => rfl
      have story := logged.story found
      rw [parked] at story
      refine logged.settle_handle found (fun _ => rfl) rfl
        (fun g other => by rw [told, if_neg other]) ?_ ?_
      · exact fun _ => List.forall_mem_singleton.2 rfl
      · rw [told, if_pos rfl]
        exact story.meet
  | spoilt found on positive parked slot unvalued =>
      obtain ⟨v, filled⟩ := stocked _ found parked
      exact absurd (Option.some.inj (slot.symm.trans filled)) (unvalued v)
  | empty found on positive parked slot =>
      obtain ⟨v, filled⟩ := stocked _ found parked
      cases slot.symm.trans filled

/-! ## Registries -/

theorem unregister_events (st : Store α ε) (s : SinkRef) (h : HandleRef) :
    (st.unregister s h).2 =
      if h ∈ (st.registry s).handles then [.noticed (.removed s h)] else [] := by
  simp only [unregister, List.contains_iff_mem]
  split <;> rfl

theorem unregister_tale (st : Store α ε) (s : SinkRef) (h : HandleRef) :
    tale h (st.unregister s h).2 =
      if h ∈ (st.registry s).handles then [.removed s h] else [] := by
  rw [unregister_events]
  split <;> simp [tale, log, Event.notice?, Notice.tellsOf]

theorem unregister_untold (st : Store α ε) (s : SinkRef) {g h : HandleRef} (other : g ≠ h) :
    tale g (st.unregister s h).2 = [] := by
  rw [unregister_events]
  split <;> simp [tale, log, Event.notice?, Notice.tellsOf, Ne.symm other]

theorem unregister_ungreeted (st : Store α ε) (s : SinkRef) (h : HandleRef) :
    greeted (st.unregister s h).2 = [] :=
  greeted_of_mute fun event member => Event.isTurn_of_isAside (st.unregister_aside s h event member)

theorem unregister_accounts (st : Store α ε) {entries : List Notice}
    (accounts : ∀ t, Balance t (st.registry t) entries) (s : SinkRef) (h : HandleRef)
    (t : SinkRef) :
    Balance t ((st.unregister s h).1.registry t) (entries ++ log (st.unregister s h).2) := by
  rw [unregister_registry, unregister_events]
  by_cases member : h ∈ (st.registry s).handles
  · rw [if_pos member]
    split
    · rename_i own
      subst own
      exact (accounts t).leave member
    · rename_i other
      exact (accounts t).pass (by simp [log, Event.notice?, Notice.countsFor, Ne.symm other])
  · rw [if_neg member, Registry.erase_of_not_mem member]
    have same : (if t = s then st.registry s else st.registry t) = st.registry t := by
      split
      · rename_i own; rw [own]
      · rfl
    rw [same]
    exact (accounts t).pass (by simp [log])

theorem join_accounts (st : Store α ε) {entries : List Notice} {waiting : List HandleRef}
    {s : SinkRef} (accounts : ∀ t, Balance t (st.registry t) entries) (inside : s < st.sinks.length)
    (open_ : st.registry s = .live waiting) (t : SinkRef) :
    Balance t ((st.join h s waiting).registry t) (entries ++ [.registered s h]) := by
  have account := accounts t
  rw [join_registry inside]
  split
  · rename_i own
    subst own
    rw [open_] at account
    exact account.join h
  · rename_i other
    exact account.pass (by simp [Notice.countsFor, Ne.symm other])

/-! ## Cancellation -/

theorem cancel_logged (logged : st.Logged history) (ok : st.Coherent) (h : HandleRef) :
    (st.cancel h).store.Logged (history ++ (st.cancel h).events) := by
  have cancels := st.cancel_cancels h
  generalize st.cancel h = e at cancels ⊢
  cases cancels with
  | missed => exact logged.still (by simp [Effect.quiet])
  | again => exact logged.still (by simp [Event.isMute])
  | @first x found on kept =>
      -- what is told of the call itself comes before what is told of the registry
      let call : List (Event α ε) := [.cancelling h, .noticed (.cancelled h)]
      let left := (st.modifyHandle h Handle.silence).unregister x.sink h
      show left.1.Logged (history ++ (call ++ left.2))
      have frame : st.Frame h left.1 :=
        (st.modifyHandle_frame h Handle.silence).trans (unregister_frame _ x.sink h)
      have silenced : left.1.handles[h]? = some x.silence := by
        simp [left, modifyHandle_handles, found]
      have ungreeted : greeted (call ++ left.2) = [] := by
        rw [greeted_append, unregister_ungreeted]
        rfl
      have calls : ∀ g, tale g call = if g = h then [.cancelled h] else [] :=
        tale_call rfl fun _ => rfl
      have told : tale h (call ++ left.2) = .cancelled h ::
          if h ∈ (st.registry x.sink).handles then [.removed x.sink h] else [] := by
        rw [tale_append, unregister_tale, modifyHandle_registry, calls, if_pos rfl]
        rfl
      refine logged.settle frame found silenced rfl ?_ ?_ ?_
      · intro g other
        rw [tale_append, unregister_untold _ _ other, ungreeted, calls, if_neg other]
        simp
      · rw [greeted_append, ungreeted, List.append_nil, told]
        refine ((logged.story found).cancel kept).of_iff .rfl (iff_false_intro ?_)
        rw [unregister_registry, if_pos rfl, Registry.handles_erase]
        exact (ok.distinct x.sink).not_mem_erase
      · intro s
        rw [log_append, ← List.append_assoc]
        refine unregister_accounts (st.modifyHandle h Handle.silence)
          (fun t => (logged.accounts t).pass ?_) x.sink h s
        exact List.forall_mem_singleton.2 rfl

/-! ## The end of a sink -/

theorem freeze_logged (logged : st.Logged history) {s : SinkRef} {y : Sink α ε}
    (found : st.sinks[s]? = some y) {hs : List HandleRef} (open_ : st.registry s = .live hs)
    (o : Outcome α ε) : (st.freeze s o).Logged (history ++
      [.terminating s o true, .noticed (.terminated s o.termination hs.length)]) := by
  let events : List (Event α ε) :=
    [.terminating s o true, .noticed (.terminated s o.termination hs.length)]
  have ungreeted : greeted events = [] := rfl
  refine ⟨?_, ?_⟩
  · intro g t home
    have story := logged.tales g t home
    have untold : tale g events = [] := rfl
    rw [tale_append, untold, greeted_append, ungreeted, List.append_nil, List.append_nil,
      freeze_registry found]
    split
    · exact story.freeze.of_iff .rfl (by simp [Registry.handles])
    · exact story
  · intro t
    have account := logged.accounts t
    rw [freeze_registry found, log_append, log_call rfl]
    split
    · rename_i own
      subst own
      rw [open_] at account
      exact account.close o
    · rename_i other
      exact account.pass (by simp [Notice.countsFor, Ne.symm other])

theorem terminate_logged (logged : st.Logged history) (s : SinkRef) (o : Outcome α ε)
    (alike : st.flag s = .pending → (st.registry s).outcome? = none) :
    (st.terminate s o).2.store.Logged (history ++ (st.terminate s o).2.events) := by
  have ends := st.terminate_ends s o
  generalize st.terminate s o = called at ends ⊢
  cases ends with
  | missed => exact logged.still (by simp [Effect.quiet])
  | lost => exact logged.still (by simp [Event.isMute, Notice.isIdle])
  | @won y found pending =>
      rw [← flag_of_sinks st found] at pending
      have running := alike pending
      rw [registry_of_sinks st found] at running
      cases registry : y.registry with
      | live hs => exact freeze_logged logged found ((registry_of_sinks st found).trans registry) o
      | frozen o' =>
          rw [registry] at running
          cases running

/-! ## After the acknowledgment -/

/-- The acknowledgment of this handle is back, and of no other, whatever is written with it. -/
theorem greeted_returned (history : List (Event α ε)) (h : HandleRef) (others : List (Event α ε))
    (mute : greeted others = []) :
    (h ∈ greeted (history ++ .ended h .subscribed :: others) ↔ True) ∧
      ∀ g, g ≠ h → g ∉ greeted (.ended h .subscribed :: others) := by
  have alone : greeted (.ended h .subscribed :: others) = [h] := congrArg (h :: ·) mute
  exact ⟨by simp [greeted_append, alone], fun g other => by simp [alone, other]⟩

theorem replay_logged (logged : st.Logged history) (found : st.handles[h]? = some x)
    (early : h ∉ greeted history) :
    st.Logged (history ++ [.ended h .subscribed, .noticed (.replaying x.sink h)]) := by
  obtain ⟨back, alone⟩ := greeted_returned history h [.noticed (.replaying x.sink h)] rfl
  have told : ∀ g, tale g [.ended h .subscribed, (.noticed (.replaying x.sink h) : Event α ε)] =
      if g = h then [.replaying x.sink h] else [] := tale_call rfl fun _ => rfl
  refine logged.settle (.refl st h) found found rfl ?_ ?_ ?_
  · exact fun g other => ⟨by rw [told, if_neg other], alone g other⟩
  · rw [told, if_pos rfl]
    exact ((logged.story found).replay early).of_iff back .rfl
  · exact fun s => (logged.accounts s).pass (List.forall_mem_singleton.2 rfl)

section Joining

variable {waiting : List HandleRef} (logged : st.Logged history) (ok : st.Coherent)
  (found : st.handles[h]? = some x) (early : h ∉ greeted history)
  (open_ : st.registry x.sink = .live waiting)
include logged ok found early open_

theorem join_logged (on : x.phase ≠ .cancelled) : (st.join h x.sink waiting).Logged
    (history ++ [.ended h .subscribed, .noticed (.registered x.sink h)]) := by
  have inside := ok.housed h x found
  obtain ⟨back, alone⟩ := greeted_returned history h [.noticed (.registered x.sink h)] rfl
  have told : ∀ g, tale g [.ended h .subscribed, (.noticed (.registered x.sink h) : Event α ε)] =
      if g = h then [.registered x.sink h] else [] := tale_call rfl fun _ => rfl
  refine logged.settle (st.join_frame inside open_) found found rfl ?_ ?_ ?_
  · exact fun g other => ⟨by rw [told, if_neg other], alone g other⟩
  · rw [told, if_pos rfl]
    refine ((logged.story found).join early on).of_iff back ?_
    simp [join_registry inside, Registry.handles]
  · exact st.join_accounts logged.accounts inside open_

/-- A handle that was cancelled meanwhile leaves the registry as it joins. -/
theorem turnAway_logged (gone : x.phase = .cancelled) :
    ((st.join h x.sink waiting).unregister x.sink h).1.Logged
      (history ++ ([.ended h .subscribed, .noticed (.registered x.sink h)] ++
        ((st.join h x.sink waiting).unregister x.sink h).2)) := by
  have story := logged.story found
  have inside := ok.housed h x found
  have absent : h ∉ waiting := by
    have out := (story.of_early early).1
    rwa [open_] at out
  have distinct := (ok.join found open_ absent).distinct x.sink
  have here : h ∈ ((st.join h x.sink waiting).registry x.sink).handles := by
    simp [join_registry inside, Registry.handles]
  have told : ∀ g, tale g [.ended h .subscribed, (.noticed (.registered x.sink h) : Event α ε)] =
      if g = h then [.registered x.sink h] else [] := tale_call rfl fun _ => rfl
  have mute := unregister_ungreeted (st.join h x.sink waiting) x.sink h
  obtain ⟨back, alone⟩ := greeted_returned history h (.noticed (.registered x.sink h) :: _) mute
  refine logged.settle ((st.join_frame inside open_).trans (unregister_frame _ x.sink h)) found
    (by rw [unregister_handles]; exact found) rfl ?_ ?_ ?_
  · intro g other
    refine ⟨?_, alone g other⟩
    rw [tale_append, unregister_untold _ _ other, told, if_neg other]
    rfl
  · rw [tale_append, unregister_tale, if_pos here, told, if_pos rfl]
    refine (story.turnAway early gone).of_iff back (iff_false_intro ?_)
    rw [unregister_registry, if_pos rfl, Registry.handles_erase]
    exact distinct.not_mem_erase
  · intro s
    have joined := st.join_accounts (h := h) logged.accounts inside open_
    rw [log_append, ← List.append_assoc]
    exact unregister_accounts (st.join h x.sink waiting) joined x.sink h s

end Joining

theorem enrol_logged (logged : st.Logged history) (ok : st.Coherent)
    (found : st.handles[h]? = some x) (early : h ∉ greeted history) :
    (st.enrol h).store.Logged (history ++ .ended h .subscribed :: (st.enrol h).events) := by
  cases registry : st.registry x.sink with
  | frozen o =>
      rw [enrol_frozen found registry]
      exact replay_logged logged found early
  | live waiting =>
      rw [enrol_live found registry]
      split
      · rename_i gone
        exact turnAway_logged logged ok found early registry gone
      · rename_i on
        exact join_logged logged ok found early registry on

/-! ## The offer -/

theorem deliver_logged (logged : st.Logged history) (found : st.handles[h]? = some x)
    (late : h ∈ greeted history) (out : h ∉ (st.registry x.sink).handles)
    (fresh : x.phase.hasValue = false) (o : Outcome α ε) :
    (st.deliver h o).store.Logged (history ++ (st.deliver h o).events) := by
  have silent : ∀ event ∈ [(.attempted h o : Event α ε)], event.isMute = true := by
    simp [Event.isMute]
  have story := logged.story found
  have phase := phase_of found
  have offers := st.deliver_offers h o
  generalize st.deliver h o = e at offers ⊢
  cases offers with
  | withheld => exact logged.still (by simp [Event.isMute, Notice.isIdle])
  | told => exact logged.still silent
  | fed requested =>
      rw [← phase, requested] at story
      refine logged.settle_handle found (fun _ => rfl) rfl (fun _ _ => rfl)
        (uncounted_of_mute silent) ?_
      show Story _ _ _ _ _ (tale h history ++ [])
      rw [List.append_nil]
      exact story.feed late out
  | @parked v idle =>
      have told : ∀ g, tale g [.attempted h (.value v), (.noticed (.valueParked h) : Event α ε)] =
          if g = h then [.valueParked h] else [] := tale_call rfl fun _ => rfl
      rw [← phase, idle] at story
      refine logged.settle_handle found (fun _ => rfl) rfl
        (fun g other => (told g).trans (if_neg other)) ?_ ?_
      · exact fun _ => List.forall_mem_singleton.2 rfl
      · exact (told h).trans (if_pos rfl) ▸ story.park late out
  | late valued =>
      rw [phase, fresh] at valued
      cases valued

end Calls

end Store

/-! ## What steps and consumers write -/

/-- What a step of a script, or a consumer's answer to a signal, does to what the log accounts
for: nothing, or it asks on a handle, cancels one, or ends a sink.  A deed (`Deed`) may come with
any notice beside it; here the notices beside are idle. -/
inductive Writes (st : Store α ε) : Effect α ε → Prop
  | idle {e : Effect α ε} (unmoved : st.Unmoved e.store)
      (mute : ∀ event ∈ e.events, event.isMute = true) : Writes st e
  | requesting {st' : Store α ε} (sinks : st'.sinks = st.sinks)
      (handles : st'.handles = st.handles) (h : HandleRef) (n : UInt64) :
      Writes st (st'.request h n)
  | cancelling (h : HandleRef) : Writes st (st.cancel h)
  | ending (s : SinkRef) (o : Outcome α ε) : Writes st (st.terminate s o).2
  | after {e : Effect α ε} {events : List (Event α ε)}
      (mute : ∀ event ∈ events, event.isMute = true) (writes : Writes st e) :
      Writes st (e.after events)
  | followedBy {e : Effect α ε} (tasks : List (Task α ε)) (writes : Writes st e) :
      Writes st (e.followedBy tasks)

namespace Writes

variable {st : Store α ε}

theorem told {e : Effect α ε} (sinks : e.store.sinks = st.sinks)
    (handles : e.store.handles = st.handles) (mute : ∀ event ∈ e.events, event.isMute = true) :
    Writes st e :=
  .idle (.of_eq sinks handles) mute

theorem quiet {e : Effect α ε} (sinks : e.store.sinks = st.sinks)
    (handles : e.store.handles = st.handles) (silent : e.events = []) : Writes st e :=
  told sinks handles (by simp [silent])

/-- **What steps and consumers write accounts for what they do.** -/
theorem logged {m : Machine α ε} {e : Effect α ε} (writes : Writes m.store e) (sound : Sound m)
    {history : List (Event α ε)} (logged : m.store.Logged history) :
    e.store.Logged (history ++ e.events) := by
  induction writes generalizing history with
  | idle unmoved mute => exact logged.pass unmoved mute
  | @requesting st' sinks handles h n =>
      have none_ : ∀ event ∈ ([] : List (Event α ε)), event.isMute = true := by simp
      have beside : st'.Logged history := by
        simpa using logged.pass (.of_eq sinks handles) none_
      refine st'.request_logged beside h n fun x found parked => ?_
      rw [handles] at found
      exact (sound.standing h x (by simp) found).parked_iff.1 parked
  | cancelling h => exact m.store.cancel_logged logged sound.coherent h
  | ending s o =>
      refine m.store.terminate_logged logged s o fun pending => ?_
      have tenure := sound.tenure s
      rw [pending] at tenure
      exact tenure.of_pending.1
  | after mute _ ih =>
      have told := ih (logged.pass (.refl _) mute)
      rwa [List.append_assoc] at told
  | followedBy tasks _ ih => exact ih logged

end Writes

namespace Store

variable (st : Store α ε)

theorem forward_writes (c : ChannelRef) (signal : Signal α ε) :
    (st.forward c signal).1.sinks = st.sinks ∧ (st.forward c signal).1.handles = st.handles ∧
      ∀ event ∈ (st.forward c signal).2, event.isMute = true := by
  have sends := st.forward_sends c signal
  generalize st.forward c signal = left at sends ⊢
  cases sends with
  | missed | kept => exact ⟨rfl, rfl, List.forall_mem_nil _⟩
  | gone | full => exact ⟨rfl, rfl, List.forall_mem_singleton.2 rfl⟩

theorem close_writes (g : GateRef) :
    (st.close g).1.sinks = st.sinks ∧ (st.close g).1.handles = st.handles ∧
      ∀ event ∈ (st.close g).2, event.isMute = true := by
  unfold close
  split <;> simp [Event.isMute, Notice.isIdle]

theorem react_writes (consumer : Consumer α ε) (h : HandleRef) (signal : Signal α ε) :
    Writes st (st.react consumer h signal) := by
  have reacts := st.react_reacts consumer h signal
  generalize st.react consumer h signal = e at reacts ⊢
  cases reacts with
  | greeting | running | valued | completed => exact .quiet rfl rfl rfl
  | asking | askingOnce => exact .requesting rfl rfl h _
  | unheard => exact .told rfl rfl (by simp [Event.isMute, Notice.isIdle])
  | sending c =>
      obtain ⟨sinks, handles, mute⟩ := st.forward_writes c signal
      exact .told sinks handles mute
  | sendingAsking c n =>
      obtain ⟨sinks, handles, mute⟩ := st.forward_writes c .subscribed
      exact .after mute (.requesting sinks handles h n)
  | closing g =>
      obtain ⟨sinks, handles, mute⟩ := st.close_writes g
      exact .told sinks handles mute

theorem addNewSink_writes {st st' : Store α ε} {label : String}
    (sinks : st'.sinks = st.sinks ++ [Sink.ofLabel label]) (handles : st'.handles = st.handles) :
    Writes st (.quiet st') := by
  have none_ : ∀ event ∈ (Effect.quiet st' : Effect α ε).events, event.isMute = true := by
    simp [Effect.quiet]
  refine .idle (.of_memory (fun s => ?_) fun h => by rw [Effect.quiet, handles]) none_
  show st'.registry s = st.registry s
  rw [registry, sinks, getElem?_snoc, registry]
  split
  · rename_i last
    simp [last, Sink.ofLabel]
  · rfl

/-- A step that subscribes writes nothing yet. -/
theorem subscribe_writes (st' : Store α ε) (sinks : st'.sinks = st.sinks)
    (handles : st'.handles = st.handles) (s : SinkRef) (consumer : Consumer α ε) :
    Writes st (st'.subscribe s consumer).2 := by
  obtain ⟨registries, phases, homes⟩ := Unmoved.subscribe st' s consumer
  obtain ⟨registries', phases', homes'⟩ := Unmoved.of_eq sinks handles
  refine .idle ⟨fun t => (registries t).trans (registries' t),
    fun h => (phases h).trans (phases' h), fun h x found => homes h x (handles ▸ found)⟩ ?_
  simp [subscribe, Event.isMute]

/-- **Every step of a script accounts for what it does.** -/
theorem perform_writes (agenda : List (Task α ε)) (within : Option Nat) (step : Step α ε) :
    Writes st (st.perform agenda within step).1 := by
  have performs := st.perform_performs agenda within step
  generalize st.perform agenda within step = performed at performs ⊢
  cases performs with
  | still | reslotting | opening | openingGate | hangingUp => exact .quiet rfl rfl rfl
  | founding | foundingStandard | sprouting => exact addNewSink_writes rfl rfl
  | ending => exact .ending _ _
  | @subscribing step k s st' consumer closing found readies =>
      exact st.subscribe_writes st' readies.beside.sinks readies.beside.handles s consumer
  | requesting found n => exact .requesting rfl rfl _ n
  | cancelling | cancellingAttached => exact .cancelling _
  | signalling found call h signal | signallingGate found call h signal =>
      exact .followedBy _ (.after (by simp [Event.isMute]) (st.react_writes _ h signal))
  | taking => exact .told rfl rfl (by simp [Event.isMute])

end Store

/-! ## Every step, every run -/

namespace Sound

variable {m : Machine α ε} {h : HandleRef} {rest : List (Task α ε)}

/-- Who is offered an outcome is back, does not wait, and has no value. -/
theorem offered {o : Outcome α ε} (sound : Sound m) (turn : m.agenda = .deliver h o :: rest) :
    ∃ x, m.store.handles[h]? = some x ∧ h ∈ greeted m.history ∧
      h ∉ (m.store.registry x.sink).handles ∧ x.phase.hasValue = false := by
  obtain ⟨x, found, -, -, stands⟩ := sound.turn_of turn (Task.deliver_concerns h o)
  obtain ⟨closed, -, heard⟩ := stands.course.of_deliver
  have acknowledged : callbacks h m.history = inTurn h [.subscribed] := heard
  refine ⟨x, found, ?_, ?_, stands.offer_fresh⟩
  · rw [mem_greeted, ← ended_mem_callbacks, acknowledged]
    simp [inTurn]
  · rw [← Registry.place_eq_waiting, closed]
    simp

/-- **Every step writes down what it does.** -/
theorem logged_step (sound : Sound m) (logged : m.store.Logged m.history) :
    m.step.store.Logged m.step.history := by
  cases turn : m.agenda with
  | nil => rwa [Machine.step_nil turn]
  | cons t rest =>
      have forgets : ∀ {left : Store α ε × List (Event α ε)}, m.store.Forgets left →
          left.1.Logged (m.history ++ left.2) := fun forgets =>
        logged.pass
          (.of_memory (fun s => by rw [Store.registry, forgets.sinks, Store.registry])
            forgets.handles)
          (forgets.each fun _ => rfl)
      rw [Machine.step_cons turn, Machine.undergo_store, Machine.undergo_history,
        Machine.behind_history]
      cases t with
      | perform within step =>
          have writes := m.store.perform_writes rest within step
          exact (Writes.followedBy _ (.after (by simp [Event.isMute]) writes)).logged sound logged
      | answer within step closing =>
          have beside := m.store.conclude_beside closing
          exact logged.pass (.of_eq beside.sinks beside.handles)
            (by simp [Task.effect, Event.isMute])
      | notify h signal =>
          cases found : m.store.handles[h]? with
          | none =>
              rw [Task.effect, Store.notify, found]
              exact logged.pass (.refl _) (by simp [Effect.quiet])
          | some x =>
              have writes := m.store.react_writes x.consumer h signal
              rw [Task.effect, Store.notify_eq found]
              exact (Writes.followedBy _ (.after (by simp [Event.isMute]) writes)).logged sound
                logged
      | finish h signal =>
          cases signal with
          | subscribed =>
              obtain ⟨x, found, -⟩ := sound.turn_of turn (Task.finish_concerns h .subscribed)
              have early := sound.ungreeted (by rw [turn]; exact List.mem_cons_self)
              exact m.store.enrol_logged logged sound.coherent found early
          | next v =>
              have told : (m.store.finish h (.next v)).store = m.store ∧
                  (m.store.finish h (.next v)).events = [.ended h (.next v)] := by
                simp only [Store.finish]
                split <;> exact ⟨rfl, rfl⟩
              rw [Task.effect, told.1, told.2]
              exact logged.pass (.refl _) (by simp [Event.isMute])
          | complete | error =>
              refine logged.pass (.refl _) ?_
              simp [Task.effect, Store.finish, Effect.after, Effect.quiet, Event.isMute]
      | deliver h o =>
          obtain ⟨x, found, late, out, fresh⟩ := sound.offered turn
          exact m.store.deliver_logged logged found late out fresh o
      | letGo hs => exact forgets (m.store.letGo_forgets rest hs)
      | giveUp s => exact forgets (m.store.giveUp_forgets rest s)
      | hangUp c => exact logged.pass (.refl _) (by simp [Task.effect, Effect.quiet])

end Sound

/-- **Every machine that a script reaches is logged.** -/
theorem Machine.logged_steps (script : List (Step α ε)) (n : Nat) :
    ((load script).steps n).store.Logged ((load script).steps n).history := by
  induction n with
  | zero =>
      refine ⟨fun h s _ => ?_, fun s => ?_⟩
      · refine .fresh (by simp [load, history, greeted]) ?_ (.inl rfl)
        simp [load, Store.empty, Store.registry, Registry.handles]
      · exact .running (by simp [load, history, log]) rfl
  | succ n ih =>
      rw [steps_step]
      exact (steps_sound script n).logged_step ih

end OneShot
