import Mathlib.Data.List.Induction
import ProviderMock.Session

/-!
# Histories of a session

What happens in a session is a list of events, and the session after them is all that they leave
behind. The generator that a synthesis finds can also be told from the history alone, without a
session: look for the last event that set or dropped it, and thread what was set, or what was made
at the first use since, through the syntheses that came after.

* **running** — `Session.run` is what the events of a history result in, one after the other.
* **telling** — `Session.Holds` reads the generator off a history. There is nothing of the slot of
  a session in it: environments and generators are handed on explicitly.
* **agreement** — `Session.generator_run_of_holds`: what is told from a history is what the session
  has. `Session.exists_holds`: there is always something to tell.
-/

namespace ProviderMock

/-- A synthesis that is asked for: all that goes into it but the generator. -/
structure Request where
  mode : Mode
  schema : Block
  target : Value
  replacement : Replacement

/-- The synthesis that is asked for, with a generator that is handed in. -/
def Request.withGenerator (q : Request) (g : Generator) : Outcome :=
  synthesize q.mode q.schema q.target q.replacement g

/-- The generator after syntheses, each of which starts with what the one before it leaves. -/
def Generator.after (g : Generator) (requests : List Request) : Generator :=
  requests.foldl (fun g q => (q.withGenerator g).generator) g

namespace Session

/-- What can happen in a session. -/
inductive Event where
  /-- a synthesis with the shared generator; the entropy is used if the generator is made for it and
  no seed is set -/
  | useShared (entropy : StreamKey) (request : Request)
  /-- a synthesis with another generator -/
  | useOther (request : Request) (g : Generator)
  | setGenerator (g : Generator)
  | resetGenerator
  | setVariable (name : String) (value : Option String)

/-- What an event results in, if in anything, and the session after it. -/
def step (s : Session) : Event → Option Outcome × Session
  | .useShared entropy q =>
    let done := s.synthesize entropy q.mode q.schema q.target q.replacement
    (some done.1, done.2)
  | .useOther q g => (some (q.withGenerator g), s)
  | .setGenerator g => (none, s.setGenerator g)
  | .resetGenerator => (none, s.resetGenerator)
  | .setVariable name value => (none, s.setVariable name value)

/-- What events result in, one after the other, and the session after them. -/
def run (s : Session) : List Event → List (Option Outcome) × Session
  | [] => ([], s)
  | e :: rest =>
    let first := s.step e
    let others := run first.2 rest
    (first.1 :: others.1, others.2)

/-! ## Reading a history -/

/-- Whether an event sets or drops the shared generator. -/
def Event.replaces : Event → Bool
  | .setGenerator _ => true
  | .resetGenerator => true
  | _ => false

/-- What an event asks of the shared generator. -/
def Event.request? : Event → Option Request
  | .useShared _ q => some q
  | _ => none

/-- What is asked of the shared generator, in order. -/
def requests (events : List Event) : List Request := events.filterMap Event.request?

/-- The environment after an event. -/
def Event.changed (environment : Environment) : Event → Environment
  | .setVariable name value => ((start environment).setVariable name value).environment
  | _ => environment

/-- The environment after events. -/
def environmentAfter (environment : Environment) (events : List Event) : Environment :=
  events.foldl Event.changed environment

/-- The generator that an environment makes. -/
def made (entropy : StreamKey) (environment : Environment) : Generator :=
  Generator.ofSettings entropy (Settings.read environment).1

/-- After a history in which nothing has set the shared generator since the start or the last time
that it was dropped. -/
def Emptied (history : List Event) : Prop :=
  history = [] ∨ ∃ before, history = before ++ [.resetGenerator]

/-- The generator that the next synthesis with the shared generator finds, told from the history
before it. The entropy is that of the next synthesis. -/
inductive Holds (environment : Environment) (entropy : StreamKey) :
    List Event → Generator → Prop where
  /-- the generator that was set last, after the syntheses since -/
  | set (before : List Event) (g : Generator) (since : List Event)
      (hsince : ∀ e ∈ since, e.replaces = false) :
      Holds environment entropy (before ++ .setGenerator g :: since) (g.after (requests since))
  /-- none is set and none was asked for: it is made now -/
  | unused (before since : List Event) (hbefore : Emptied before)
      (hsince : ∀ e ∈ since, e.replaces = false) (hunused : requests since = []) :
      Holds environment entropy (before ++ since)
        (made entropy (environmentAfter environment (before ++ since)))
  /-- none is set: it was made at the first synthesis that asked for it, from the environment as it
  was then, and the syntheses since have come after -/
  | used (before idle : List Event) (first : StreamKey) (q : Request) (since : List Event)
      (hbefore : Emptied before) (hidle : ∀ e ∈ idle, e.replaces = false)
      (hunused : requests idle = []) (hsince : ∀ e ∈ since, e.replaces = false) :
      Holds environment entropy (before ++ idle ++ .useShared first q :: since)
        ((made first (environmentAfter environment (before ++ idle))).after (q :: requests since))

/-! ## Running a history -/

variable {environment : Environment} {entropy : StreamKey}

/-- Events in two goes result in what they do at once. -/
theorem run_append (s : Session) (events more : List Event) :
    s.run (events ++ more) =
      ((s.run events).1 ++ ((s.run events).2.run more).1, ((s.run events).2.run more).2) := by
  induction events generalizing s with
  | nil => rfl
  | cons e rest ih => simp [run, ih]

/-- Every event has a result. -/
theorem length_run (s : Session) (events : List Event) :
    (s.run events).1.length = events.length := by
  induction events generalizing s with
  | nil => rfl
  | cons e rest ih => simp [run, ih]

/-- Only changes of variables reach the environment. -/
theorem environment_run (s : Session) (events : List Event) :
    (s.run events).2.environment = environmentAfter s.environment events := by
  induction events generalizing s with
  | nil => rfl
  | cons e rest ih =>
    rw [run, ih, environmentAfter, environmentAfter, List.foldl_cons]
    cases e <;> rfl

/-- A generator that is there is handed from one synthesis to the next. -/
theorem shared_run_of_some {s : Session} {g : Generator} (hs : s.shared = some g)
    {events : List Event} (h : ∀ e ∈ events, e.replaces = false) :
    (s.run events).2.shared = some (g.after (requests events)) := by
  induction events generalizing s g with
  | nil => exact hs
  | cons e rest ih =>
    obtain ⟨he, hrest⟩ := List.forall_mem_cons.mp h
    cases e with
    | useShared key q =>
      have hnext : (s.step (.useShared key q)).2.shared = some (q.withGenerator g).generator := by
        simp [step, synthesize, withGenerator, generator, setGenerator, hs, Request.withGenerator]
      exact ih hnext hrest
    | useOther q other => exact ih hs hrest
    | setVariable name value => exact ih hs hrest
    | setGenerator other => cases he
    | resetGenerator => cases he

/-- While nothing asks for the shared generator, none is made. -/
theorem shared_run_of_none {s : Session} (hs : s.shared = none) {events : List Event}
    (h : ∀ e ∈ events, e.replaces = false) (hunused : requests events = []) :
    (s.run events).2.shared = none := by
  induction events generalizing s with
  | nil => exact hs
  | cons e rest ih =>
    obtain ⟨he, hrest⟩ := List.forall_mem_cons.mp h
    cases e with
    | useShared key q => simp [requests, Event.request?] at hunused
    | useOther q other => exact ih hs hrest hunused
    | setVariable name value => exact ih hs hrest hunused
    | setGenerator other => cases he
    | resetGenerator => cases he

/-- There is no generator at the start, and none after it was dropped. -/
theorem shared_run_of_emptied {history : List Event} (h : Emptied history) :
    ((start environment).run history).2.shared = none := by
  rcases h with rfl | ⟨before, rfl⟩
  · rfl
  · rw [run_append]
    rfl

/-- A session that has a generator uses it, and needs no entropy. -/
theorem generator_of_some {s : Session} {g : Generator} (hs : s.shared = some g)
    (entropy : StreamKey) : s.generator entropy = g := by
  simp [generator, hs]

/-- A session without a generator makes one from its environment. -/
theorem generator_of_none {s : Session} (hs : s.shared = none) (entropy : StreamKey) :
    s.generator entropy = made entropy s.environment := by
  simp [generator, made, hs]

/-- A synthesis with the shared generator is one with the generator that the session has. -/
theorem step_useShared (s : Session) (entropy : StreamKey) (q : Request) :
    s.step (.useShared entropy q) =
      (some (q.withGenerator (s.generator entropy)),
        s.setGenerator (q.withGenerator (s.generator entropy)).generator) := rfl

/-- **What is told from a history is what the session has.** -/
theorem generator_run_of_holds {history : List Event} {g : Generator}
    (h : Holds environment entropy history g) :
    ((start environment).run history).2.generator entropy = g := by
  cases h with
  | set before g since hsince =>
    have hshared : ((start environment).run (before ++ .setGenerator g :: since)).2.shared =
        some (g.after (requests since)) := by
      rw [run_append, run]
      exact shared_run_of_some rfl hsince
    exact generator_of_some hshared entropy
  | unused before since hbefore hsince hunused =>
    have hshared : ((start environment).run (before ++ since)).2.shared = none := by
      rw [run_append]
      exact shared_run_of_none (shared_run_of_emptied hbefore) hsince hunused
    rw [generator_of_none hshared, environment_run]
    rfl
  | used before idle first q since hbefore hidle hunused hsince =>
    -- the generator that the first synthesis makes, and what it leaves to the others
    have hidleShared : ((start environment).run (before ++ idle)).2.shared = none := by
      rw [run_append]
      exact shared_run_of_none (shared_run_of_emptied hbefore) hidle hunused
    have hfirst := generator_of_none hidleShared first
    rw [environment_run] at hfirst
    have hshared : ((start environment).run
        (before ++ idle ++ .useShared first q :: since)).2.shared =
        some ((made first (environmentAfter environment (before ++ idle))).after
          (q :: requests since)) := by
      rw [run_append, run, step_useShared, hfirst]
      exact shared_run_of_some rfl hsince
    exact generator_of_some hshared entropy

/-- One more event that does not replace the generator is no reason for a history to tell less. -/
theorem exists_holds_concat {history : List Event} {g : Generator}
    (h : Holds environment entropy history g) {e : Event} (he : e.replaces = false)
    (next : StreamKey) : ∃ g, Holds environment next (history ++ [e]) g := by
  have hconcat : ∀ since : List Event, (∀ e ∈ since, e.replaces = false) →
      ∀ d ∈ since ++ [e], d.replaces = false := by
    intro since hsince
    exact List.forall_mem_append.mpr ⟨hsince, List.forall_mem_singleton.mpr he⟩
  cases h with
  | set before g since hsince =>
    have hnext : Holds environment next _ _ := .set before g (since ++ [e]) (hconcat since hsince)
    rw [← List.cons_append, ← List.append_assoc] at hnext
    exact ⟨_, hnext⟩
  | unused before since hbefore hsince hunused =>
    cases hrequest : e.request? with
    | none =>
      have hnext : Holds environment next _ _ := .unused before (since ++ [e]) hbefore
        (hconcat since hsince) (by simpa [requests, hrequest] using hunused)
      rw [← List.append_assoc] at hnext
      exact ⟨_, hnext⟩
    | some q =>
      -- the first synthesis that asks for the generator
      cases e with
      | useShared key r => exact ⟨_, .used before since key r [] hbefore hsince hunused nofun⟩
      | _ => cases hrequest
  | used before idle first q since hbefore hidle hunused hsince =>
    have hnext : Holds environment next _ _ :=
      .used before idle first q (since ++ [e]) hbefore hidle hunused (hconcat since hsince)
    rw [← List.cons_append, ← List.append_assoc] at hnext
    exact ⟨_, hnext⟩

/-- **Every history tells of a generator.** -/
theorem exists_holds (environment : Environment) (entropy : StreamKey) (history : List Event) :
    ∃ g, Holds environment entropy history g := by
  induction history using List.reverseRecOn generalizing entropy with
  | nil => exact ⟨_, .unused [] [] (.inl rfl) nofun rfl⟩
  | append_singleton before e ih =>
    cases hreplaces : e.replaces with
    | false =>
      obtain ⟨g, hg⟩ := ih entropy
      exact exists_holds_concat hg hreplaces entropy
    | true =>
      cases e with
      | setGenerator g => exact ⟨_, .set before g [] nofun⟩
      | resetGenerator =>
        have hempty : Emptied (before ++ [.resetGenerator]) := .inr ⟨before, rfl⟩
        have hnext : Holds environment entropy _ _ := .unused _ [] hempty nofun rfl
        rw [List.append_nil] at hnext
        exact ⟨_, hnext⟩
      | _ => cases hreplaces

/-- **The shared generator is explicit threading.** Wherever a synthesis with the shared generator
comes in a history, the history before it tells of exactly one generator, and the outcome is that
of the synthesis with this generator handed in. What comes later makes no difference. -/
theorem outcome_useShared (environment : Environment) (before : List Event) (entropy : StreamKey)
    (q : Request) (later : List Event) :
    ∃ g, (∀ other, Holds environment entropy before other ↔ other = g) ∧
      ((start environment).run (before ++ .useShared entropy q :: later)).1[before.length]? =
        some (some (q.withGenerator g)) := by
  obtain ⟨g, hg⟩ := exists_holds environment entropy before
  have hgenerator := generator_run_of_holds hg
  refine ⟨g, fun other => ⟨fun hother => ?_, fun heq => heq ▸ hg⟩, ?_⟩
  · rw [← hgenerator, generator_run_of_holds hother]
  · rw [run_append, ← length_run (start environment) before,
      List.getElem?_append_right (Nat.le_refl _), Nat.sub_self, run, step_useShared, hgenerator]
    rfl

end Session

end ProviderMock
