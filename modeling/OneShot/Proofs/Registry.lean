/-
# OneShot.Proofs.Registry -- sinks, their registries, and who stands in them

`Store.Coherent` is what a store keeps to at all times: slots refer to sinks that
exist, a handle belongs to a sink that exists, and a registry holds handles of its own
sink, each once.

What is done to one handle leaves all others where they are: that is a *frame*
(`Store.Frame`), and frames compose.  A handle joins a registry (`Store.join`) or leaves it
(`Store.unregister`), and an outcome closes it (`Store.freeze`); the lemmas on these stand
here.

A sink's *tenure* ties its end to the calls that tried to end it: as long as there was
none, its flag is pending and its registry open; the first one has won, and its outcome is
what the registry holds and what the flag says; all later ones have lost.
-/
import OneShot.Proofs.Course

namespace OneShot

set_option autoImplicit false

variable {α ε : Type}

/-! ## Registries -/

namespace Registry

theorem place_eq_waiting {r : Registry α ε} {h : HandleRef} :
    r.place h = .waiting ↔ h ∈ r.handles := by
  cases r with
  | live handles => by_cases member : h ∈ handles <;> simp [place, Registry.handles, member]
  | frozen o => simp [place, Registry.handles]

theorem place_eq_closed {r : Registry α ε} {h : HandleRef} {o : Outcome α ε} :
    r.place h = .closed o ↔ r.outcome? = some o := by
  cases r with
  | live handles => by_cases member : h ∈ handles <;> simp [place, outcome?, member]
  | frozen o' => simp [place, outcome?]

theorem outcome?_eq_some {r : Registry α ε} {o : Outcome α ε} :
    r.outcome? = some o ↔ r = .frozen o := by
  cases r <;> simp [outcome?]

theorem place_live_append {handles : List HandleRef} {h g : HandleRef} :
    (live (α := α) (ε := ε) (handles ++ [h])).place g =
      if g = h then .waiting else (live handles).place g := by
  by_cases same : g = h <;> simp [place, same]

@[simp] theorem outcome?_erase (r : Registry α ε) (h : HandleRef) :
    (r.erase h).outcome? = r.outcome? := by
  cases r <;> rfl

theorem handles_erase (r : Registry α ε) (h : HandleRef) :
    (r.erase h).handles = r.handles.erase h := by
  cases r <;> rfl

theorem place_erase_self {r : Registry α ε} (distinct : r.handles.Nodup) (h : HandleRef) :
    (r.erase h).place h = (r.place h).leave := by
  cases r with
  | live handles =>
      have gone : h ∉ handles.erase h := distinct.not_mem_erase
      by_cases member : h ∈ handles <;> simp [erase, place, Place.leave, gone, member]
  | frozen o => rfl

theorem place_erase_of_ne {r : Registry α ε} {h g : HandleRef} (ne : g ≠ h) :
    (r.erase h).place g = r.place g := by
  cases r with
  | live handles => simp [erase, place, List.mem_erase_of_ne ne]
  | frozen o => rfl

theorem erase_of_not_mem {r : Registry α ε} {h : HandleRef} (absent : h ∉ r.handles) :
    r.erase h = r := by
  cases r with
  | live handles =>
      have out : h ∉ handles := absent
      simp [erase, List.erase_of_not_mem out]
  | frozen o => rfl

end Registry

namespace Store

variable (st : Store α ε)

def flag (s : SinkRef) : Termination := (st.sinks[s]?.map Sink.flag).getD .pending

theorem phase_of {st : Store α ε} {h : HandleRef} {x : Handle α ε}
    (found : st.handles[h]? = some x) : st.phase h = x.phase := by
  simp [phase, found]

/-! ## Changing one cell -/

@[simp] theorem modifyHandle_registry (h : HandleRef) (f : Handle α ε → Handle α ε)
    (s : SinkRef) : (st.modifyHandle h f).registry s = st.registry s := rfl

theorem modifyHandle_handles (h : HandleRef) (f : Handle α ε → Handle α ε) (g : HandleRef) :
    (st.modifyHandle h f).handles[g]? =
      if g = h then st.handles[g]?.map f else st.handles[g]? := by
  simp only [modifyHandle, List.getElem?_modify]
  by_cases same : h = g
  · subst same; simp
  · have : ¬ g = h := fun eq => same eq.symm
    cases st.handles[g]? <;> simp [same, this]

theorem modifySink_length (s : SinkRef) (f : Sink α ε → Sink α ε) :
    (st.modifySink s f).sinks.length = st.sinks.length := by
  simp [modifySink]

theorem modifySink_sinks (s : SinkRef) (f : Sink α ε → Sink α ε) (t : SinkRef) :
    (st.modifySink s f).sinks[t]? = if t = s then st.sinks[t]?.map f else st.sinks[t]? := by
  simp only [modifySink, List.getElem?_modify]
  by_cases same : s = t
  · subst same; simp
  · have : ¬ t = s := fun eq => same eq.symm
    cases st.sinks[t]? <;> simp [same, this]

theorem registry_modifySink_of_ne {s t : SinkRef} (ne : t ≠ s) (f : Sink α ε → Sink α ε) :
    (st.modifySink s f).registry t = st.registry t := by
  simp [registry, modifySink_sinks, ne]

theorem registry_modifySink_self {s : SinkRef} {y : Sink α ε} (found : st.sinks[s]? = some y)
    (f : Sink α ε → Sink α ε) : (st.modifySink s f).registry s = (f y).registry := by
  simp [registry, modifySink_sinks, found]

theorem flag_modifySink_of_ne {s t : SinkRef} (ne : t ≠ s) (f : Sink α ε → Sink α ε) :
    (st.modifySink s f).flag t = st.flag t := by
  simp [flag, modifySink_sinks, ne]

theorem flag_modifySink_self {s : SinkRef} {y : Sink α ε} (found : st.sinks[s]? = some y)
    (f : Sink α ε → Sink α ε) : (st.modifySink s f).flag s = (f y).flag := by
  simp [flag, modifySink_sinks, found]

theorem registry_of_sinks {s : SinkRef} {y : Sink α ε} (found : st.sinks[s]? = some y) :
    st.registry s = y.registry := by
  simp [registry, found]

theorem flag_of_sinks {s : SinkRef} {y : Sink α ε} (found : st.sinks[s]? = some y) :
    st.flag s = y.flag := by
  simp [flag, found]

/-- A change of a sink that keeps flag and registry is seen by no registry. -/
theorem registry_modifySink {s : SinkRef} {f : Sink α ε → Sink α ε}
    (keep : ∀ y, (f y).registry = y.registry) (t : SinkRef) :
    (st.modifySink s f).registry t = st.registry t := by
  by_cases same : t = s
  · subst same
    simp only [registry, modifySink_sinks, if_pos]
    cases st.sinks[t]? <;> simp [keep]
  · exact registry_modifySink_of_ne st same f

theorem flag_modifySink {s : SinkRef} {f : Sink α ε → Sink α ε}
    (keep : ∀ y, (f y).flag = y.flag) (t : SinkRef) :
    (st.modifySink s f).flag t = st.flag t := by
  by_cases same : t = s
  · subst same
    simp only [flag, modifySink_sinks, if_pos]
    cases st.sinks[t]? <;> simp [keep]
  · exact flag_modifySink_of_ne st same f

/-! ## Leaving a registry -/

@[simp] theorem unregister_handles (s : SinkRef) (h : HandleRef) :
    (st.unregister s h).1.handles = st.handles := by
  unfold unregister
  split <;> rfl

@[simp] theorem unregister_names (s : SinkRef) (h : HandleRef) (t : SinkRef) :
    (st.unregister s h).1.names t = st.names t := by
  unfold unregister
  split <;> rfl

theorem unregister_length (s : SinkRef) (h : HandleRef) :
    (st.unregister s h).1.sinks.length = st.sinks.length := by
  unfold unregister
  split
  · exact modifySink_length ..
  · rfl

theorem unregister_flag (s : SinkRef) (h : HandleRef) (t : SinkRef) :
    (st.unregister s h).1.flag t = st.flag t := by
  unfold unregister
  split
  · exact flag_modifySink st (by intro y; rfl) t
  · rfl

theorem unregister_registry (s : SinkRef) (h : HandleRef) (t : SinkRef) :
    (st.unregister s h).1.registry t =
      if t = s then (st.registry s).erase h else st.registry t := by
  unfold unregister
  split
  · by_cases same : t = s
    · subst same
      simp only [registry, modifySink_sinks, if_pos]
      cases st.sinks[t]? <;> rfl
    · simp [same, registry_modifySink_of_ne st same]
  · rename_i absent
    have out : h ∉ (st.registry s).handles := by simpa using absent
    by_cases same : t = s
    · subst same; simp [Registry.erase_of_not_mem out]
    · simp [same]

theorem unregister_aside (s : SinkRef) (h : HandleRef) :
    ∀ event ∈ (st.unregister s h).2, event.isAside = true := by
  unfold unregister
  split <;> simp [Event.isAside]

/-! ## Frames -/

/-- The second store differs from the first at most in what it says of the handle `h`. -/
structure Frame (h : HandleRef) (st st' : Store α ε) : Prop where
  flags : ∀ s, st'.flag s = st.flag s
  outcomes : ∀ s, (st'.registry s).outcome? = (st.registry s).outcome?
  places : ∀ g, g ≠ h → ∀ s, (st'.registry s).place g = (st.registry s).place g
  handles : ∀ g, g ≠ h → st'.handles[g]? = st.handles[g]?

theorem Frame.refl (h : HandleRef) : st.Frame h st :=
  ⟨fun _ => rfl, fun _ => rfl, fun _ _ _ => rfl, fun _ _ => rfl⟩

theorem Frame.trans {h : HandleRef} {st st' st'' : Store α ε} (first : st.Frame h st')
    (second : st'.Frame h st'') : st.Frame h st'' :=
  ⟨fun s => (second.flags s).trans (first.flags s),
    fun s => (second.outcomes s).trans (first.outcomes s),
    fun g ne s => (second.places g ne s).trans (first.places g ne s),
    fun g ne => (second.handles g ne).trans (first.handles g ne)⟩

theorem modifyHandle_frame (h : HandleRef) (f : Handle α ε → Handle α ε) :
    st.Frame h (st.modifyHandle h f) := by
  refine ⟨fun _ => rfl, fun _ => rfl, fun _ _ _ => rfl, ?_⟩
  intro g ne
  rw [modifyHandle_handles, if_neg ne]

theorem unregister_frame (s : SinkRef) (h : HandleRef) : st.Frame h (st.unregister s h).1 := by
  refine ⟨st.unregister_flag s h, ?_, ?_, ?_⟩
  · intro t
    rw [unregister_registry]
    by_cases same : t = s
    · rw [if_pos same, Registry.outcome?_erase, same]
    · rw [if_neg same]
  · intro g ne t
    rw [unregister_registry]
    by_cases same : t = s
    · rw [if_pos same, Registry.place_erase_of_ne ne, same]
    · rw [if_neg same]
  · intro g _
    rw [unregister_handles]

/-! ## Coherence -/

/-- Slots refer to sinks that exist, handles belong to sinks that exist, and registries
hold handles of their own sink, each once. -/
structure Coherent : Prop where
  named : ∀ s, st.names s = true → s < st.sinks.length
  housed : ∀ (h : HandleRef) (x : Handle α ε), st.handles[h]? = some x →
    x.sink < st.sinks.length
  enrolled : ∀ (s : SinkRef) (h : HandleRef), h ∈ (st.registry s).handles →
    ∃ x : Handle α ε, st.handles[h]? = some x ∧ x.sink = s
  distinct : ∀ s, (st.registry s).handles.Nodup

namespace Coherent

variable {st}

theorem empty : (Store.empty : Store α ε).Coherent where
  named s named := by simp [Store.empty, names] at named
  housed h x found := by simp [Store.empty] at found
  enrolled s h member := by simp [Store.empty, registry, Registry.handles] at member
  distinct s := by simp [Store.empty, registry, Registry.handles]

theorem once (ok : st.Coherent) {s : SinkRef} {hs : List HandleRef}
    (open_ : st.registry s = .live hs) : hs.Nodup := by
  have distinct := ok.distinct s
  rwa [open_] at distinct

/-- A handle waits in the registry of its own sink only. -/
theorem home (ok : st.Coherent) {h : HandleRef} {x : Handle α ε} (found : st.handles[h]? = some x)
    {s : SinkRef} (waits : h ∈ (st.registry s).handles) : x.sink = s := by
  obtain ⟨y, at_, home⟩ := ok.enrolled s h waits
  rw [found] at at_
  cases at_
  exact home

theorem exists_waits (ok : st.Coherent) {h : HandleRef} {x : Handle α ε}
    (found : st.handles[h]? = some x) (P : SinkRef → Prop) :
    (∃ s, P s ∧ h ∈ (st.registry s).handles) ↔
      P x.sink ∧ h ∈ (st.registry x.sink).handles := by
  constructor
  · rintro ⟨s, holds, waits⟩
    obtain rfl := ok.home found waits
    exact ⟨holds, waits⟩
  · exact fun waits => ⟨x.sink, waits⟩

/-- Coherence is kept where names, homes and registries are at most forgotten. -/
theorem mono (ok : st.Coherent) {st' : Store α ε}
    (names : ∀ s, st'.names s = true → s < st'.sinks.length)
    (length : st.sinks.length ≤ st'.sinks.length)
    (sinks : ∀ h : HandleRef, st'.handles[h]?.map Handle.sink = st.handles[h]?.map Handle.sink)
    (sub : ∀ s, (st'.registry s).handles.Sublist (st.registry s).handles) : st'.Coherent where
  named := names
  housed h x found := by
    have same := sinks h
    rw [found, Option.map_some, eq_comm, Option.map_eq_some_iff] at same
    obtain ⟨y, old, eq⟩ := same
    exact eq ▸ Nat.lt_of_lt_of_le (ok.housed h y old) length
  enrolled s h member := by
    obtain ⟨y, old, home⟩ := ok.enrolled s h ((sub s).subset member)
    have same := sinks h
    rw [old, Option.map_some, Option.map_eq_some_iff] at same
    obtain ⟨x, found, eq⟩ := same
    exact ⟨x, found, eq.trans home⟩
  distinct s := (ok.distinct s).sublist (sub s)

theorem modifyHandle (ok : st.Coherent) (h : HandleRef) {f : Handle α ε → Handle α ε}
    (keep : ∀ x, (f x).sink = x.sink) : (st.modifyHandle h f).Coherent := by
  refine ok.mono ok.named (Nat.le_refl _) ?_ (fun _ => List.Sublist.refl _)
  intro g
  rw [modifyHandle_handles]
  by_cases same : g = h
  · simp only [same, if_pos]
    cases st.handles[h]? <;> simp [keep]
  · simp [same]

theorem unregister (ok : st.Coherent) (s : SinkRef) (h : HandleRef) :
    (st.unregister s h).1.Coherent := by
  refine ok.mono ?_ (Nat.le_of_eq (unregister_length st s h).symm) (fun g => by simp) ?_
  · intro t named
    rw [unregister_length]
    exact ok.named t (by simpa using named)
  · intro t
    rw [unregister_registry]
    by_cases same : t = s
    · simp only [same, if_pos, Registry.handles_erase]
      exact List.erase_sublist
    · simp [same]

end Coherent

/-! ## Joining a registry -/

section Join

variable {st : Store α ε} {h : HandleRef} {x : Handle α ε}

/-- The handle joins the registry of its sink. -/
def join (st : Store α ε) (h : HandleRef) (s : SinkRef) (waiting : List HandleRef) : Store α ε :=
  st.modifySink s fun x => { x with registry := .live (waiting ++ [h]) }

theorem join_registry {s : SinkRef} (inside : s < st.sinks.length) (waiting : List HandleRef)
    (t : SinkRef) : (st.join h s waiting).registry t =
      if t = s then .live (waiting ++ [h]) else st.registry t := by
  by_cases same : t = s
  · subst same
    simp [join, st.registry_modifySink_self (List.getElem?_eq_getElem inside)]
  · simp [join, same, st.registry_modifySink_of_ne same]

theorem join_place_self {s : SinkRef} (inside : s < st.sinks.length) (waiting : List HandleRef) :
    ((st.join h s waiting).registry s).place h = .waiting := by
  rw [join_registry inside, if_pos rfl, Registry.place_live_append, if_pos rfl]

theorem join_frame {waiting : List HandleRef} (inside : x.sink < st.sinks.length)
    (open_ : st.registry x.sink = .live waiting) : st.Frame h (st.join h x.sink waiting) := by
  refine ⟨?_, ?_, ?_, fun _ _ => rfl⟩
  · exact st.flag_modifySink (f := fun x => { x with registry := .live (waiting ++ [h]) })
      fun _ => rfl
  · intro s
    rw [join_registry inside]
    by_cases same : s = x.sink
    · rw [if_pos same, same, open_]; rfl
    · rw [if_neg same]
  · intro g ne s
    rw [join_registry inside]
    by_cases same : s = x.sink
    · rw [if_pos same, Registry.place_live_append, if_neg ne, same, open_]
    · rw [if_neg same]

theorem Coherent.join (ok : st.Coherent) {waiting : List HandleRef}
    (found : st.handles[h]? = some x) (open_ : st.registry x.sink = .live waiting)
    (out : h ∉ waiting) : (st.join h x.sink waiting).Coherent := by
  have inside := ok.housed h x found
  have length : (st.join h x.sink waiting).sinks.length = st.sinks.length :=
    st.modifySink_length x.sink _
  refine ⟨?_, ?_, ?_, ?_⟩
  · intro s named
    rw [length]
    exact ok.named s named
  · intro g y at_
    rw [length]
    exact ok.housed g y at_
  · intro s g member
    rw [join_registry inside] at member
    split at member
    · rename_i same
      rcases List.mem_append.1 member with old | new
      · exact same ▸ ok.enrolled x.sink g (by rw [open_]; exact old)
      · exact ⟨x, by rw [List.mem_singleton.1 new]; exact found, same.symm⟩
    · exact ok.enrolled s g member
  · intro s
    rw [join_registry inside]
    split
    · have distinct := ok.distinct x.sink
      rw [open_] at distinct
      exact List.nodup_append.2 ⟨distinct, by simp, by rintro g old _ new rfl; simp_all⟩
    · exact ok.distinct s

end Join

/-! ## The end of a sink -/

/-- The sink holds its outcome. -/
def freeze (st : Store α ε) (s : SinkRef) (o : Outcome α ε) : Store α ε :=
  st.modifySink s fun x => { x with flag := o.termination, registry := .frozen o }

section Freeze

variable {st : Store α ε} {s : SinkRef} {y : Sink α ε} (found : st.sinks[s]? = some y)
  (o : Outcome α ε)
include found

theorem freeze_registry (t : SinkRef) :
    (st.freeze s o).registry t = if t = s then .frozen o else st.registry t := by
  by_cases same : t = s
  · subst same; simp [freeze, st.registry_modifySink_self found]
  · simp [freeze, same, st.registry_modifySink_of_ne same]

theorem freeze_flag (t : SinkRef) :
    (st.freeze s o).flag t = if t = s then o.termination else st.flag t := by
  by_cases same : t = s
  · subst same; simp [freeze, st.flag_modifySink_self found]
  · simp [freeze, same, st.flag_modifySink_of_ne same]

omit found in
@[simp] theorem freeze_handles : (st.freeze s o).handles = st.handles := rfl

theorem Coherent.freeze (ok : st.Coherent) : (st.freeze s o).Coherent := by
  have length : (st.freeze s o).sinks.length = st.sinks.length := st.modifySink_length s _
  refine ok.mono ?_ (Nat.le_of_eq length.symm) (fun _ => rfl) ?_
  · intro t named
    rw [length]
    exact ok.named t named
  · intro t
    rw [freeze_registry found]
    by_cases same : t = s <;> simp [same, Registry.handles]

end Freeze

end Store

/-! ## Tenure -/

/-- How the end of a sink goes with the calls that tried to end it. -/
inductive Tenure : Option (Outcome α ε) → Termination → List (Outcome α ε × Bool) → Prop
  | running : Tenure none .pending []
  | ended (o : Outcome α ε) {later : List (Outcome α ε × Bool)}
      (lost : ∀ a ∈ later, a.2 = false) : Tenure (some o) o.termination ((o, true) :: later)

namespace Tenure

variable {end_ : Option (Outcome α ε)} {flag : Termination} {calls : List (Outcome α ε × Bool)}

theorem of_pending (tenure : Tenure end_ .pending calls) : end_ = none ∧ calls = [] := by
  generalize pending : Termination.pending = flag at tenure
  cases tenure with
  | running => exact ⟨rfl, rfl⟩
  | ended o lost => exact absurd pending.symm o.termination_ne_pending

/-- No call has started yet. -/
theorem of_nil (tenure : Tenure end_ flag []) : end_ = none ∧ flag = .pending := by
  generalize none_ : ([] : List (Outcome α ε × Bool)) = calls at tenure
  cases tenure with
  | running => exact ⟨rfl, rfl⟩
  | ended o lost => cases none_

/-- The call that started first has won. -/
theorem of_cons {first : Outcome α ε × Bool} {later : List (Outcome α ε × Bool)}
    (tenure : Tenure end_ flag (first :: later)) :
    first.2 = true ∧ end_ = some first.1 ∧ flag = first.1.termination := by
  generalize some_ : first :: later = calls at tenure
  cases tenure with
  | running => cases some_
  | ended o lost => cases some_; exact ⟨rfl, rfl, rfl⟩

theorem lose (tenure : Tenure end_ flag calls) (closed : flag ≠ .pending) (o : Outcome α ε) :
    Tenure end_ flag (calls ++ [(o, false)]) := by
  cases tenure with
  | running => exact absurd rfl closed
  | ended first lost =>
      apply Tenure.ended first
      intro a member
      rcases List.mem_append.1 member with old | new
      · exact lost a old
      · simp_all

/-- The outcome of a sink is that of the one call that has won. -/
theorem won_iff (tenure : Tenure end_ flag calls) {o : Outcome α ε} :
    (o, true) ∈ calls ↔ end_ = some o := by
  cases tenure with
  | running => simp
  | ended first lost =>
      have none_ : ∀ {o}, (o, true) ∉ _ := fun member => Bool.noConfusion (lost _ member)
      simp [none_, eq_comm]

end Tenure

end OneShot
