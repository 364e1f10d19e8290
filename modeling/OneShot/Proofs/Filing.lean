/-
# OneShot.Proofs.Filing -- a slot that holds a subscription holds it for good

A script has a slot of its own, reserved when it is subscribed and filled when it is
acknowledged, or when the call that subscribes it returns.  No two scripts share a slot, and
no slot is reserved that exists (`Store.Filed`).  So a slot is filled with the handle for which
it was reserved and with no other, and who has named a handle once can name it always
(`Machine.Filed.named_steps`).
-/
import OneShot.Proofs.Outlets.Wiring

namespace OneShot

set_option autoImplicit false

variable {α ε : Type}

namespace Store

/-- The slot that is reserved for the consumer of a handle. -/
def slotOf (st : Store α ε) (h : HandleRef) : Option Nat := st.consumers[h]?.bind Consumer.slot?

/-- Slots are reserved for one handle each, and filled with no other. -/
structure Filed (st : Store α ε) : Prop where
  own : ∀ g k, st.slotOf g = some k →
    st.slots.subs[k]? = some none ∨ st.slots.subs[k]? = some (some g)
  distinct : ∀ g h k, st.slotOf g = some k → st.slotOf h = some k → g = h

/-- What a task does to the slots of subscriptions: it adds some, one of them perhaps reserved
for a consumer that is new, or it fills the one that is reserved for a handle. -/
inductive Files (st st' : Store α ε) : Prop
  | grows {added : List (Option HandleRef)} {made : List (Consumer α ε)}
      (subs : st'.slots.subs = st.slots.subs ++ added)
      (consumers : st'.consumers = st.consumers ++ made)
      (reserved : ∀ c ∈ made, ∀ k, c.slot? = some k →
        made = [c] ∧ added = [none] ∧ k = st.slots.subs.length)
  | fills {g : HandleRef} {k : Nat} (own : st.slotOf g = some k)
      (subs : st'.slots.subs = st.slots.subs.set k (some g))
      (consumers : st'.consumers = st.consumers)

section Files

variable {st st' : Store α ε}

theorem slotOf_grown {made : List (Consumer α ε)} (grown : st'.consumers = st.consumers ++ made)
    {h : HandleRef} {k : Nat} (slotted : st'.slotOf h = some k) :
    st.slotOf h = some k ∨
      st.consumers.length ≤ h ∧ ∃ c, made[h - st.consumers.length]? = some c ∧ c.slot? = some k := by
  rw [slotOf, grown] at slotted
  rcases Nat.lt_or_ge h st.consumers.length with old | new
  · rw [List.getElem?_append_left old] at slotted
    exact .inl slotted
  · rw [List.getElem?_append_right new] at slotted
    exact .inr ⟨new, Option.bind_eq_some_iff.1 slotted⟩

theorem slotOf_mono {made : List (Consumer α ε)} (grown : st'.consumers = st.consumers ++ made)
    {h : HandleRef} {k : Nat} (slotted : st.slotOf h = some k) : st'.slotOf h = some k := by
  obtain ⟨c, at_, -⟩ := Option.bind_eq_some_iff.1 slotted
  rw [slotOf, grown, List.getElem?_append_left (List.getElem?_eq_some_iff.1 at_).1]
  exact slotted

/-- A slot that is reserved exists. -/
theorem Filed.inside (filed : st.Filed) {g : HandleRef} {k : Nat}
    (slotted : st.slotOf g = some k) : k < st.slots.subs.length := by
  rcases filed.own g k slotted with at_ | at_ <;> exact (List.getElem?_eq_some_iff.1 at_).1

theorem Files.filed (files : st.Files st') (filed : st.Filed) : st'.Filed := by
  cases files with
  | @grows added made subs consumers reserved =>
      -- a consumer with a slot that is new has the one slot that is added
      have fresh : ∀ {h k}, st'.slotOf h = some k → st.slotOf h = some k ∨
          (h = st.consumers.length ∧ added = [none] ∧ k = st.slots.subs.length) := by
        intro h k slotted
        refine (slotOf_grown consumers slotted).imp_right ?_
        rintro ⟨beyond, c, at_, own⟩
        obtain ⟨alone, new, last⟩ := reserved c (List.mem_of_getElem? at_) k own
        rw [alone] at at_
        have first := (List.getElem?_eq_some_iff.1 at_).1
        simp only [List.length_singleton] at first
        have none_ : h - st.consumers.length = 0 := Nat.lt_one_iff.1 first
        exact ⟨Nat.le_antisymm (Nat.sub_eq_zero_iff_le.1 none_) beyond, new, last⟩
      refine ⟨?_, ?_⟩
      · intro g k slotted
        rw [subs]
        rcases fresh slotted with old | ⟨-, rfl, rfl⟩
        · rw [List.getElem?_append_left (filed.inside old)]
          exact filed.own g k old
        · exact .inl (by simp)
      · intro g h k first second
        rcases fresh first with old | ⟨here, -, last⟩
        · rcases fresh second with old' | ⟨-, -, last'⟩
          · exact filed.distinct g h k old old'
          · exact absurd (filed.inside old) (by omega)
        · rcases fresh second with old' | ⟨there, -, -⟩
          · exact absurd (filed.inside old') (by omega)
          · rw [here, there]
  | @fills h k own subs consumers =>
      have same : ∀ g, st'.slotOf g = st.slotOf g := fun g => by rw [slotOf, consumers, slotOf]
      refine ⟨?_, ?_⟩
      · intro g k' slotted
        rw [same] at slotted
        rw [subs, List.getElem?_set]
        split
        · rename_i here
          subst here
          obtain rfl := filed.distinct g h k slotted own
          rw [if_pos (filed.inside own)]
          exact .inr rfl
        · exact filed.own g k' slotted
      · intro g g' k'
        rw [same, same]
        exact filed.distinct g g' k'

/-- **What stands in a slot stays there.** -/
theorem Files.keeps (files : st.Files st') (filed : st.Filed) {k : Nat} {h : HandleRef}
    (at_ : st.slots.subs[k]? = some (some h)) : st'.slots.subs[k]? = some (some h) := by
  have inside := (List.getElem?_eq_some_iff.1 at_).1
  cases files with
  | grows subs _ _ =>
      rw [subs, List.getElem?_append_left inside]
      exact at_
  | @fills g k' own subs _ =>
      rw [subs, List.getElem?_set]
      split
      · rename_i here
        subst here
        rw [if_pos inside]
        rcases filed.own g k' own with empty | same
        · rw [at_] at empty
          cases empty
        · rw [← same]
          exact at_
      · exact at_

theorem Files.named (files : st.Files st') (filed : st.Filed) {within : Option Nat}
    {name : SubName} {h : HandleRef} (named : st.sub? within name = some h) :
    st'.sub? within name = some h := by
  have slots : ∀ {k}, slot? st.slots.subs k = some h → slot? st'.slots.subs k = some h :=
    fun found => Option.join_eq_some_iff.2 (files.keeps filed (Option.join_eq_some_iff.1 found))
  cases name with
  | slot k => exact slots named
  | own =>
      cases within with
      | none => cases named
      | some k => exact slots named

theorem Files.keep (subs : st'.slots.subs = st.slots.subs) (consumers : st'.consumers = st.consumers) :
    st.Files st' :=
  .grows (by rw [subs, List.append_nil]) (by rw [consumers, List.append_nil])
    (List.forall_mem_nil _)

theorem Rests.files {e : Effect α ε} (rests : st.Rests e) : st.Files e.store :=
  .keep (by rw [rests.slots]) rests.consumers

/-- A handle in a slot that is new. -/
theorem Files.add (st : Store α ε) (h : HandleRef) : st.Files (st.addSub (some h)) :=
  have subs : (st.addSub (some h)).slots.subs = st.slots.subs ++ [some h] := rfl
  .grows subs (List.append_nil _).symm (List.forall_mem_nil _)

/-- An outlet is subscribed without a slot. -/
theorem Files.outlet (st st' : Store α ε) (s : SinkRef) (consumer : Consumer α ε)
    (subs : st'.slots.subs = st.slots.subs) (consumers : st'.consumers = st.consumers)
    (none_ : consumer.slot? = none) : st.Files (st'.subscribe s consumer).2.store := by
  have kept : (st'.subscribe s consumer).2.store.slots = st'.slots := rfl
  refine .grows (by rw [kept, subs, List.append_nil])
    (by rw [subscribe_consumers, consumers]) ?_
  intro c member k own
  rw [List.mem_singleton.1 member, none_] at own
  cases own

/-- A script is subscribed with the slot that is reserved for it. -/
theorem Files.script (st : Store α ε) (s : SinkRef) (consumer : Consumer α ε)
    (own : consumer.slot? = some st.slots.subs.length) :
    st.Files ((st.addSub none).subscribe s consumer).2.store ∧
      ((st.addSub none).subscribe s consumer).2.store.slotOf st.handles.length =
        some st.slots.subs.length := by
  have consumers := (st.addSub none).subscribe_consumers s consumer
  constructor
  · have subs : ((st.addSub none).subscribe s consumer).2.store.slots.subs =
        st.slots.subs ++ [none] := rfl
    refine .grows subs consumers ?_
    intro c member k slotted
    obtain rfl := List.mem_singleton.1 member
    rw [own] at slotted
    exact ⟨rfl, rfl, (Option.some.inj slotted).symm⟩
  · have here : st.handles.length = st.consumers.length := st.consumers_length.symm
    rw [slotOf, consumers, here]
    show (st.consumers ++ [consumer])[st.consumers.length]?.bind _ = _
    simp [own]

end Files

/-! ## What steps do to slots -/

/-- A step files its subscriptions, and its reply fills no slot but the one reserved. -/
structure Shelves (st : Store α ε) (e : Effect α ε) (closing : Closing α ε) : Prop where
  files : st.Files e.store
  fits : ∀ k g, closing = .fill k g → e.store.slotOf g = some k

section Steps

variable (st : Store α ε)

theorem Shelves.reply {st : Store α ε} {e : Effect α ε} {r : Reply α ε}
    (files : st.Files e.store) : st.Shelves e (.reply r) :=
  ⟨files, fun _ _ other => by cases other⟩

theorem cancel_files (h : HandleRef) : st.Files (st.cancel h).store :=
  .keep (congrArg Slots.subs (st.cancel_slots h)) (st.cancel_consumers h)

theorem Reslots.files {st : Store α ε} {within : Option Nat} {step : Step α ε} {slots : Slots}
    {tasks : List (Task α ε)} (reslots : st.Reslots within step slots tasks) :
    st.Files { st with slots } := by
  cases reslots with
  | @cloneSub name h => exact .add st h
  | _ => exact .keep rfl rfl

/-- Who is subscribed is filed under the slot that is reserved, if it is a script. -/
theorem Readies.shelves {st st' : Store α ε} {k : Nat} {step : Step α ε} {consumer : Consumer α ε}
    {closing : Closing α ε} (readies : st.Readies k step st' consumer closing) (s : SinkRef) :
    st.Shelves (st'.subscribe s consumer).2 closing := by
  cases readies with
  | scripted hooks =>
      obtain ⟨files, -⟩ := Files.script st s (.scripted st.slots.subs.length hooks) rfl
      exact ⟨files, fun _ _ other => by cases other⟩
  | valueOnly onNext =>
      obtain ⟨files, own⟩ := Files.script st s (.valueOnly st.slots.subs.length onNext) rfl
      refine ⟨files, ?_⟩
      intro k g filled
      cases filled
      exact own
  | newChannel | newGate | attachChannel | attachGate =>
      exact ⟨.outlet st _ s _ rfl rfl rfl, fun _ _ other => by cases other⟩

theorem perform_shelves (agenda : List (Task α ε)) (within : Option Nat) (step : Step α ε) :
    st.Shelves (st.perform agenda within step).1 (st.perform agenda within step).2 := by
  have performs := st.perform_performs agenda within step
  generalize st.perform agenda within step = performed at performs ⊢
  cases performs with
  | still | founding | foundingStandard | sprouting | opening | openingGate | taking
  | hangingUp =>
      exact .reply (.keep rfl rfl)
  | reslotting reslots => exact .reply reslots.files
  | @ending step k s o => exact .reply (st.terminate_rests s o).files
  | subscribing found readies => exact readies.shelves _
  | requesting found n => exact .reply (st.request_rests _ n).files
  | cancelling | cancellingAttached => exact .reply (st.cancel_files _)
  | @signalling k c found call h signal =>
      exact .reply (st.outlet_rests (.channel c) h signal).files
  | @signallingGate k g found call h signal =>
      exact .reply (st.outlet_rests (.gate g) h signal).files

/-- An acknowledgment fills the slot of a script; no other callback fills any. -/
theorem react_files {h : HandleRef} {x : Handle α ε} (found : st.handles[h]? = some x)
    (signal : Signal α ε) : st.Files (st.react x.consumer h signal).store := by
  have own : st.slotOf h = x.consumer.slot? := by simp [slotOf, consumers, found]
  rcases st.react_rests x.consumer h signal with rests | ⟨slot, hooks, scripted, rfl⟩
  · exact rests.files
  · rw [scripted] at own ⊢
    exact .fills own rfl rfl

end Steps

end Store

/-! ## Every task, every run -/

/-- The slot that a reply still has to fill, and with which handle. -/
def Task.fills? : Task α ε → Option (Nat × HandleRef)
  | answer _ _ (.fill k h) => some (k, h)
  | _ => none

theorem Task.fills?_of_ref? {t : Task α ε} (none_ : t.ref? = none) : t.fills? = none := by
  cases t with
  | answer within step closing => cases closing <;> simp_all [ref?, Closing.ref?, fills?]
  | _ => rfl

theorem Task.effect_files (st : Store α ε) (rest : List (Task α ε)) (t : Task α ε)
    (due : ∀ k g, t.fills? = some (k, g) → st.slotOf g = some k) :
    st.Files (t.effect st rest).store := by
  cases t with
  | perform within step => exact (st.perform_shelves rest within step).files
  | answer within step closing =>
      cases closing with
      | reply | enrolled | keepGate => exact .keep rfl rfl
      | fill k g => exact .fills (due k g rfl) rfl rfl
      | attach h => exact .add st h
      | receive h c =>
          have subs : (st.conclude (.receive h c)).1.slots.subs = st.slots.subs ++ [some h] := rfl
          exact .grows subs (List.append_nil _).symm (List.forall_mem_nil _)
  | notify h signal =>
      cases found : st.handles[h]? with
      | none =>
          rw [effect, Store.notify, found]
          exact .keep rfl rfl
      | some x =>
          rw [effect, Store.notify_eq found]
          exact st.react_files found signal
  | finish h signal => exact (st.finish_rests h signal).files
  | deliver h o => exact (st.deliver_rests h o).files
  | letGo hs => exact (st.letGo_forgets rest hs).rests.files
  | giveUp s => exact (st.giveUp_forgets rest s).rests.files
  | hangUp c => exact .keep rfl rfl

/-- A reply that a task leaves fills the slot reserved for its handle. -/
theorem Task.effect_due (st : Store α ε) (rest : List (Task α ε)) (t : Task α ε) :
    ∀ t' ∈ (t.effect st rest).tasks, ∀ k g, t'.fills? = some (k, g) →
      (t.effect st rest).store.slotOf g = some k := by
  intro t' member k g fills
  rcases effect_refs st rest t t' member with none_ | ⟨within, step, rfl, rfl⟩
  · rw [fills?_of_ref? none_] at fills
    cases fills
  · have fits := (st.perform_shelves rest within step).fits k g
    cases closing : (st.perform rest within step).2 with
    | fill k' g' =>
        rw [closing] at fills fits
        cases fills
        exact fits rfl
    | _ =>
        rw [closing] at fills
        cases fills

namespace Machine

/-- Slots are in order, and replies that are still to be given keep them so. -/
structure Filed (m : Machine α ε) : Prop where
  store : m.store.Filed
  due : ∀ t ∈ m.agenda, ∀ k g, t.fills? = some (k, g) → m.store.slotOf g = some k

namespace Filed

variable {m : Machine α ε}

theorem files (filed : m.Filed) : m.store.Files m.step.store := by
  cases turn : m.agenda with
  | nil =>
      rw [step_nil turn]
      exact .keep rfl rfl
  | cons t rest =>
      rw [step_cons turn]
      exact Task.effect_files m.store rest t (filed.due t (by rw [turn]; exact List.mem_cons_self))

theorem step (filed : m.Filed) : m.step.Filed := by
  refine ⟨filed.files.filed filed.store, ?_⟩
  cases turn : m.agenda with
  | nil =>
      rw [step_nil turn]
      exact filed.due
  | cons t rest =>
      intro t' member k g fills
      obtain ⟨made, grown⟩ := m.step_consumers
      rw [step_cons turn] at member grown ⊢
      rw [undergo_agenda, behind_agenda, turn] at member
      rcases List.mem_append.1 member with new | old
      · exact Task.effect_due m.store rest t t' new k g fills
      · apply Store.slotOf_mono grown
        exact filed.due t' (by rw [turn]; exact List.mem_cons_of_mem _ old) k g fills

theorem steps (filed : m.Filed) (n : Nat) : (m.steps n).Filed :=
  steps_keep (fun _ filed => filed.step) filed n

/-- **Who can name a handle can name it always.** -/
theorem named_steps (filed : m.Filed) {within : Option Nat} {name : SubName} {h : HandleRef}
    (named : m.store.sub? within name = some h) (n : Nat) :
    (m.steps n).store.sub? within name = some h := by
  induction n with
  | zero => exact named
  | succ n ih =>
      rw [steps_step]
      exact (filed.steps n).files.named (filed.steps n).store ih

end Filed

theorem steps_filed (script : List (Step α ε)) (n : Nat) : ((load script).steps n).Filed := by
  refine Filed.steps ⟨⟨?_, ?_⟩, ?_⟩ n
  · intro g k slotted
    simp [load, Store.empty, Store.slotOf, Store.consumers] at slotted
  · intro g h k slotted
    simp [load, Store.empty, Store.slotOf, Store.consumers] at slotted
  · intro t member k g fills
    obtain ⟨step, -, rfl⟩ := List.mem_map.1 member
    cases fills

end Machine

end OneShot
