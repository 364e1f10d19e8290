/-
# OneShot.Proofs.Wrapping -- layers around an error

An error goes into a failure as it is, and a failure can be put into another, to any depth.
Of all these layers only the outline tells: `BaseError.Reads b n f` says that the failure `f` is
read as the error `b` itself, but for `n` layers in its outline.

* `BaseError.layered_reads`: whatever layers are put around an error are read so.
* `SoundBut.copy_of_ended`, `handed_told`: what a sink that fails lets anybody have is the
  failure that it was ended with, be it the callbacks of its consumers, what a channel keeps and
  hands out, or the looks at the sink.
* `wrapping_is_transparent` puts the two together.
-/
import OneShot.Proofs.Roster
import OneShot.Proofs.Outlets.Channel

namespace OneShot

set_option autoImplicit false

open Text

variable {α ε : Type}

/-! ## The chain of causes -/

/-- The next error of the chain. -/
def Cause.source? (e : Cause) : Option Cause :=
  match e.causes with
  | [] => none
  | message :: causes => some { message, causes }

/-- The first error of the chain below a failure.  A layer passes the question on. -/
def Failure.source? : Failure → Option Cause
  | foreign e => e.toCause.source?
  | wrapped inner => inner.source?
  | _ => none

/-- An error before a layer is put around it: one from outside, or a failure. -/
inductive BaseError
  | outside (e : Foreign)
  | inside (f : Failure)
  deriving DecidableEq, Repr

namespace BaseError

def display : BaseError → String
  | outside e => e.message
  | inside f => f.display

def sources : BaseError → List String
  | outside e => e.causes
  | inside f => f.sources

def shape : BaseError → Shape
  | outside e => e.shape
  | inside f => f.shape

def source? : BaseError → Option Cause
  | outside e => e.toCause.source?
  | inside f => f.source?

/-- The errors of the chain, found by asking each for its source. -/
def ancestor? (b : BaseError) : Nat → Option Cause
  | 0 => b.source?
  | k + 1 => (b.ancestor? k).bind Cause.source?

/-- Puts a layer around an error. -/
def wrap : BaseError → Failure
  | outside e => .foreign e
  | inside f => .wrapped f

/-- `n` layers around an error. -/
def layered (b : BaseError) : Nat → BaseError
  | 0 => b
  | n + 1 => .inside (b.layered n).wrap

end BaseError

/-- The errors below one are its causes. -/
theorem Cause.source?_eq (e : Cause) :
    e.source?.map Cause.message = e.causes[0]? ∧
      ∀ below, e.source? = some below → below.causes = e.causes.tail := by
  obtain ⟨message, causes⟩ := e
  cases causes with
  | nil => simp [source?]
  | cons cause causes =>
      refine ⟨rfl, ?_⟩
      rintro below found
      obtain rfl := Option.some.inj found
      rfl

theorem Failure.source?_eq (f : Failure) :
    f.source?.map Cause.message = f.sources[0]? ∧
      ∀ below, f.source? = some below → below.causes = f.sources.tail := by
  induction f with
  | foreign e => exact e.toCause.source?_eq
  | wrapped inner ih => exact ih
  | _ => exact ⟨rfl, fun below found => nomatch found⟩

namespace BaseError

theorem source?_eq (b : BaseError) :
    b.source?.map Cause.message = b.sources[0]? ∧
      ∀ below, b.source? = some below → below.causes = b.sources.tail := by
  cases b with
  | outside e => exact e.toCause.source?_eq
  | inside f => exact f.source?_eq

/-- Each error of the chain has the rest of the chain below it. -/
theorem ancestor?_eq (b : BaseError) (k : Nat) :
    (b.ancestor? k).map Cause.message = b.sources[k]? ∧
      ∀ below, b.ancestor? k = some below → below.causes = b.sources.drop (k + 1) := by
  induction k with
  | zero => simpa [ancestor?] using b.source?_eq
  | succ k ih =>
      obtain ⟨message, rest⟩ := ih
      rw [ancestor?]
      cases found : b.ancestor? k with
      | none =>
          -- the chain is over already
          rw [found] at message
          have short : b.sources.length ≤ k := List.getElem?_eq_none_iff.1 message.symm
          have past : b.sources[k + 1]? = none := List.getElem?_eq_none (by omega)
          simp [past]
      | some e =>
          obtain ⟨first, below⟩ := e.source?_eq
          rw [rest e found] at first below
          refine ⟨?_, ?_⟩
          · simpa using first
          · intro deeper found'
            simpa using below deeper found'

/-! ## Layers -/

/-- One layer more in an outline. -/
def outlined (s : Shape) : Shape := .tuple "External" [s]

/-- **How a failure reads** that holds the error `b` under `n` layers.  Neither its message nor
its chain of sources tells of them; its outline has exactly these layers around that of `b`. -/
structure Reads (b : BaseError) (n : Nat) (f : Failure) : Prop where
  display : f.display = b.display
  sources : f.sources = b.sources
  ancestors : ∀ k, (inside f).ancestor? k = b.ancestor? k
  messages : ∀ k, ((inside f).ancestor? k).map Cause.message = b.sources[k]?
  shape : f.shape = Nat.repeat outlined n b.shape
  line : f.shape.line = Nat.repeat (fun text => "External(" ++ text ++ ")") n b.shape.line

theorem wrap_display (b : BaseError) : b.wrap.display = b.display := by
  cases b <;> rfl

theorem wrap_sources (b : BaseError) : b.wrap.sources = b.sources := by
  cases b <;> rfl

theorem wrap_source? (b : BaseError) : b.wrap.source? = b.source? := by
  cases b <;> rfl

theorem wrap_shape (b : BaseError) : b.wrap.shape = outlined b.shape := by
  cases b <;> rfl

/-- The chain starts with the first source, and so do all that is found along it. -/
theorem ancestor?_congr {b b' : BaseError} (same : b.source? = b'.source?) (k : Nat) :
    b.ancestor? k = b'.ancestor? k := by
  induction k with
  | zero => exact same
  | succ k ih => rw [ancestor?, ancestor?, ih]

theorem outlined_line (s : Shape) : (outlined s).line = "External(" ++ s.line ++ ")" := by
  show "External" ++ "(" ++ s.line ++ ")" = _
  rw [show "External" ++ "(" = "External(" from rfl]

theorem repeat_line (n : Nat) (s : Shape) : (Nat.repeat outlined n s).line =
    Nat.repeat (fun text => "External(" ++ text ++ ")") n s.line := by
  induction n with
  | zero => rfl
  | succ n ih => rw [Nat.repeat, outlined_line, ih, Nat.repeat]

/-- What layers leave alone, and what they add. -/
theorem layered_eq (b : BaseError) (n : Nat) :
    (b.layered n).display = b.display ∧ (b.layered n).sources = b.sources ∧
      (b.layered n).source? = b.source? ∧ (b.layered n).shape = Nat.repeat outlined n b.shape := by
  induction n with
  | zero => exact ⟨rfl, rfl, rfl, rfl⟩
  | succ n ih =>
      obtain ⟨display, sources, source, shape⟩ := ih
      refine ⟨?_, ?_, ?_, ?_⟩
      · exact (wrap_display _).trans display
      · exact (wrap_sources _).trans sources
      · exact (wrap_source? _).trans source
      · rw [Nat.repeat, ← shape]
        exact wrap_shape _

/-- **Layers are transparent**, to any depth. -/
theorem layered_reads {b : BaseError} {n : Nat} {f : Failure} (eq : b.layered n = .inside f) :
    b.Reads n f := by
  obtain ⟨display, sources, source, shape⟩ := b.layered_eq n
  rw [eq] at display sources source shape
  have ancestors := ancestor?_congr source
  refine ⟨display, sources, ancestors, ?_, shape, ?_⟩
  · intro k
    rw [ancestors]
    exact (b.ancestor?_eq k).1
  · rw [← repeat_line, ← shape]
    rfl

/-- An error is a failure as soon as there is a layer around it. -/
theorem exists_layered {b : BaseError} {n : Nat} (held : (∃ f, b = .inside f) ∨ 0 < n) :
    ∃ f, b.layered n = .inside f := by
  cases n with
  | zero =>
      obtain ⟨f, rfl⟩ := held.resolve_right (Nat.lt_irrefl 0)
      exact ⟨f, rfl⟩
  | succ n => exact ⟨_, rfl⟩

end BaseError

/-! ## Copies of the error of a sink -/

/-- A consumer hears no error but the one that its sink has ended with. -/
theorem SoundBut.copy_of_ended {m : Machine α ε} (sound : SoundBut none m) {s : SinkRef}
    {h : HandleRef} {e copy : ε} (ended : .terminating s (.error e) true ∈ m.history)
    (made : .subscribing s h ∈ m.history) (began : .began h (.error copy) ∈ m.history) :
    copy = e := by
  obtain ⟨x, found, rfl⟩ : ∃ x, m.store.handles[h]? = some x ∧ x.sink = s := by
    have home := (sound.made s h).1 made
    rwa [Option.map_eq_some_iff] at home
  have closed := Registry.place_eq_closed (h := h).2
    (Registry.outcome?_eq_some.2 (sound.ended_iff.1 ended))
  have told := (sound.standing h x (by simp) found).course.heard_closed closed
  have heard : .began h (.error copy) ∈ callbacks h m.history :=
    List.mem_filter.2 ⟨began, by simp [Event.isCallback]⟩
  simpa [inTurn, Outcome.signals] using told.subset heard

/-- What stands in a channel after a step, or is handed out in it, stood there before or is told
to it. -/
theorem Passes.told {st st' : Store α ε} {c : ChannelRef} {traffic : Traffic α ε}
    (passes : Passes st st' c traffic) {signal : Signal α ε}
    (member : signal ∈ traffic.handed ++ st'.queue c) :
    signal ∈ st.queue c ++ traffic.told := by
  cases passes with
  | still queue | full _ _ queue | gone _ _ queue =>
      rw [queue] at member
      exact List.mem_append_left _ member
  | founded _ _ queue | hungUp queue =>
      rw [queue] at member
      cases member
  | kept _ _ queue =>
      rw [queue] at member
      exact member
  | taken queue =>
      rw [← queue] at member
      exact List.mem_append_left _ member

/-- **What stands in a channel, and what was handed out of it, was told to it.** -/
theorem Machine.handed_told (script : List (Step α ε)) (n : Nat) (c : ChannelRef) :
    let m := (load script).steps n
    ∀ signal ∈ handed c m.history ++ m.store.queue c,
      signal ∈ m.store.told (.channel c) m.history := by
  intro m signal member
  have kept := steps_keep
    (P := fun m => Sound m ∧ m.Wired ∧
      ∀ t, m.store.traffic c m.history = t → ∀ signal ∈ t.handed ++ m.store.queue c, signal ∈ t.told)
    (fun m ⟨sound, wired, told⟩ => by
      refine ⟨sound.step, wired.step, ?_⟩
      rintro t rfl signal member
      rw [traffic_step sound c, Traffic.handed_append, List.append_assoc] at member
      rw [traffic_step sound c, Traffic.told_append]
      rcases List.mem_append.1 member with earlier | now
      · exact List.mem_append_left _ (told _ rfl _ (List.mem_append_left _ earlier))
      · rcases List.mem_append.1 ((wired.passes c).told now) with pending | new
        · exact List.mem_append_left _ (told _ rfl _ (List.mem_append_right _ pending))
        · exact List.mem_append_right _ new)
    (m := load script) ⟨Sound.load script, .load script, by rintro t rfl signal member; cases member⟩ n
  exact kept.2.2 _ rfl signal member

/-! ## The result -/

/-- **Layers around an error are transparent**, however many they are, and for everybody who
meets the error.

The error is any failure, or one from outside with any chain of causes and any outline; the latter
needs a layer to be a failure.  The failure that the layers make is displayed as the error, and
has its chain of sources, each with the next below it: no layer is in there, nor is the error
itself.  In the outline the error stands in exactly so many layers.

If a sink ends with that failure, in whatever run, then all its copies read the same: those that
the consumers of the sink hear, whether they subscribed before or after; what stands in their
channels or was received there; and what a look at the sink answers.  Once no call is in
progress, every consumer that did not cancel has its copy. -/
theorem wrapping_is_transparent (b : BaseError) (n : Nat) (held : (∃ f, b = .inside f) ∨ 0 < n) :
    ∃ f, b.layered n = .inside f ∧ b.Reads n f ∧
      ∀ (script : List (Step α Failure)) (i : Nat) (s : SinkRef),
        let m := (Machine.load script).steps i
        .terminating s (.error f) true ∈ m.history →
          (∀ h copy, .subscribing s h ∈ m.history → .began h (.error copy) ∈ m.history →
            b.Reads n copy) ∧
          (∀ c copy, (∀ h, m.store.target? h = some (.channel c) → .subscribing s h ∈ m.history) →
            (∀ signal, .direct (.channel c) signal ∉ m.history) →
            .error copy ∈ handed c m.history ++ m.store.queue c → b.Reads n copy) ∧
          (∃ copy, m.store.Shows s .failed (some (.error copy)) 0 ∧ b.Reads n copy) ∧
          ∀ h, m.AtRest → .subscribing s h ∈ m.history → .cancelling h ∉ m.history →
            ∃ copy, callbacks h m.history = inTurn h [.subscribed, .error copy] ∧
              b.Reads n copy := by
  obtain ⟨f, eq⟩ := BaseError.exists_layered held
  have reads := BaseError.layered_reads eq
  refine ⟨f, eq, reads, ?_⟩
  intro script i s m ended
  have sound : Sound m := Machine.steps_sound script i
  have frozen := sound.ended_iff.1 ended
  have heard : ∀ h copy, .subscribing s h ∈ m.history → .began h (.error copy) ∈ m.history →
      b.Reads n copy := by
    intro h copy made began
    rw [sound.copy_of_ended ended made began]
    exact reads
  refine ⟨heard, ?_, ?_, ?_⟩
  · intro c copy own indirect member
    obtain ⟨event, happened, tells⟩ :=
      List.mem_filterMap.1 (Machine.handed_told script i c _ member)
    cases event with
    | began h signal =>
        simp only [Store.tells?, Option.ite_none_right_eq_some, Option.some.injEq] at tells
        obtain ⟨target, rfl⟩ := tells
        exact heard h copy (own h target) happened
    | direct target signal =>
        simp only [Store.tells?, Option.ite_none_right_eq_some, Option.some.injEq] at tells
        obtain ⟨rfl, rfl⟩ := tells
        exact absurd happened (indirect _)
    | _ => cases tells
  · refine ⟨f, ?_, reads⟩
    have shows := m.store.shows_registry s
    rw [frozen] at shows
    exact shows
  · intro h rest made kept
    obtain ⟨x, found, rfl⟩ : ∃ x, m.store.handles[h]? = some x ∧ x.sink = s := by
      have home := (sound.made s h).1 made
      rwa [Option.map_eq_some_iff] at home
    rcases sound.settled found (rest.pending h) kept with
      ⟨unended, -⟩ | ⟨o, frozen', ⟨-, heard⟩ | ⟨v, rfl, -⟩⟩
    · exact absurd ended (unended _)
    · obtain rfl := sound.eq_of_ended frozen' ended
      exact ⟨f, heard, reads⟩
    · cases sound.eq_of_ended frozen' ended

/-- Two layers around an error with two causes and an outline of its own: it is received through
a channel that was there before, and heard by a script that came after. -/
theorem wrapping_is_transparent_twice :
    let e : Foreign :=
      { message := "unreadable", causes := ["disk on fire", "short circuit"],
        outline := { line := "Unreadable(5)", lines := ["Unreadable(", "    5,", ")"] } }
    let b : BaseError := .outside e
    let f : Failure := .wrapped (.foreign e)
    let script : List (Step Nat Failure) :=
      [.newSink none, .subscribeChannel 0 none, .fail 0 f, .subscribe 0 [] [] [] [], .recv 0, .recv 0]
    let m := (Machine.load script).steps 40
    0 < 2 ∧ b.layered 2 = .inside f ∧ f.sources = ["disk on fire", "short circuit"] ∧
      f.shape.line = "External(External(Unreadable(5)))" ∧
      .terminating 0 (.error f) true ∈ m.history ∧
      handed 0 m.history = [.subscribed, .error f] ∧ b.Reads 2 f ∧
      ∃ copy, callbacks 1 m.history = inTurn 1 [.subscribed, .error copy] ∧ b.Reads 2 copy := by
  intro e b f script m
  have sound : Sound m := Machine.steps_sound script 40
  have layers : b.layered 2 = .inside f := rfl
  have ended : .terminating 0 (.error f) true ∈ m.history := mem_attempts.1 (by decide +kernel)
  have early : .subscribing 0 0 ∈ m.history := (sound.made 0 0).2 (by decide +kernel)
  have late : .subscribing 0 1 ∈ m.history := (sound.made 0 1).2 (by decide +kernel)
  have received : handed 0 m.history = [.subscribed, .error f] := by decide +kernel
  have own : ∀ h, m.store.target? h = some (.channel 0) → .subscribing 0 h ∈ m.history := by
    have outlets : m.store.consumers.map Consumer.target? = [some (.channel 0), none] := by
      decide +kernel
    intro h hears
    rw [Store.target?_of_map outlets] at hears
    rcases h with _ | _ | h
    · exact early
    · exact late
    · cases hears
  have indirect : ∀ signal, .direct (.channel 0) signal ∉ m.history := by
    intro signal direct
    have none_ : directs m.history = [] := by decide +kernel
    rw [← mem_directs, none_] at direct
    cases direct
  have rest : m.AtRest := by
    have closed : m.agenda = [] := List.isEmpty_iff.1 (by decide +kernel)
    simp [Machine.AtRest, closed]
  have kept : .cancelling 1 ∉ m.history := by
    rw [← Ledger.renounced_iff]
    decide +kernel
  obtain ⟨f', eq, -, copies⟩ := @wrapping_is_transparent Nat b 2 (.inr (by decide))
  obtain rfl : f = f' := BaseError.inside.inj (layers.symm.trans eq)
  obtain ⟨-, channel, -, heard⟩ := copies script 40 0 ended
  refine ⟨by decide, layers, rfl, by decide +kernel, ended, received, ?_, heard 1 rest late kept⟩
  exact channel 0 f own indirect (List.mem_append_left _ (by rw [received]; simp))

end OneShot
