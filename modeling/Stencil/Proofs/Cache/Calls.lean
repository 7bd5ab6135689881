/-
# Stencil.Proofs.Cache.Calls -- many calls to one cache

A call for the form under a key looks the key up, on a miss compiles a form and offers it, or fails.
The look and the offer are single steps, but between them the cache is free, so the steps of other
calls may stand there, whether these run at the same time or are made by the compiler itself.
`Calls.step` is one such step and `Calls.run` any order of them.  What a call compiles is an object
of its own: `Made` tells the call beside the form.

`Calls.account_of_run` says of every run that all calls for a key that succeed return the first
object that was offered for it, that nothing else is ever done to the cache, and what the cache
counts afterwards.  It is proved from `Calls.Follows`, which ties the cache and the calls to the
steps taken so far; one step keeps it (`Calls.follows_step`), so a run does (`Calls.follows_run`).
`Cache.fetch` is a call whose compiler does what is done between its look and its offer.
-/
import Stencil.Proofs.Cache.Keys
import Stencil.Proofs.Template.Identity
import Mathlib.Data.List.Dedup

set_option autoImplicit false
set_option linter.unusedSectionVars false

namespace Stencil

/-- A compiled form as the object that one call has made. -/
structure Made (ι α : Type) where
  maker : ι
  form : α
  deriving DecidableEq, Repr

/-- How far a call has got. -/
inductive Stage (ι ε α : Type) where
  | waiting
  | compiling (key : CacheKey)
  | returned (key : CacheKey) (result : Except ε (Made ι α))

/-- A step of a call. -/
inductive Event (ι ε α : Type) where
  | look (call : ι) (key : CacheKey)
  | fail (call : ι) (key : CacheKey) (error : ε)
  | insert (call : ι) (key : CacheKey) (form : α)

namespace Event

variable {ι ε α : Type}

def key : Event ι ε α → CacheKey
  | .look _ key | .fail _ key _ | .insert _ key _ => key

/-- What is offered for a key. -/
def made? (key : CacheKey) : Event ι ε α → Option (Made ι α)
  | .insert call key' form => if key' = key then some ⟨call, form⟩ else none
  | _ => none

def inserted? : Event ι ε α → Option CacheKey
  | .insert _ key _ => some key
  | _ => none

def maker? : Event ι ε α → Option ι
  | .insert call _ _ => some call
  | _ => none

/-- The first object offered for a key. -/
def firstMade (key : CacheKey) (events : List (Event ι ε α)) : Option (Made ι α) :=
  events.findSome? (made? key)

/-- The keys for which something was offered. -/
def insertedKeys (events : List (Event ι ε α)) : List CacheKey := events.filterMap inserted?

/-- The calls that offered something. -/
def makers (events : List (Event ι ε α)) : List ι := events.filterMap maker?

theorem firstMade_append (key : CacheKey) (before after : List (Event ι ε α)) :
    firstMade key (before ++ after) = (firstMade key before).or (firstMade key after) := by
  rw [firstMade, List.findSome?_append, firstMade, firstMade]

theorem firstMade_isSome_iff (key : CacheKey) (events : List (Event ι ε α)) :
    (firstMade key events).isSome = true ↔ key ∈ insertedKeys events := by
  rw [firstMade, List.isSome_findSome?, List.any_eq_true, insertedKeys, List.mem_filterMap]
  refine exists_congr fun event => and_congr_right fun _ => ?_
  cases event with
  | look call key' => simp [made?, inserted?]
  | fail call key' error => simp [made?, inserted?]
  | insert call key' form =>
      by_cases same : key' = key
      · simp [made?, inserted?, same]
      · simp [made?, inserted?, same]

end Event

/-- A cache and the calls to it. -/
structure Calls (ι ε α : Type) where
  cache : Cache (Made ι α)
  stage : ι → Stage ι ε α

namespace Calls

variable {ι ε α : Type} [DecidableEq ι]

def start : Calls ι ε α := ⟨Cache.empty, fun _ => .waiting⟩

/-- A call gets to a stage. -/
def enter (s : Calls ι ε α) (call : ι) (stage : Stage ι ε α) : Calls ι ε α :=
  { s with stage := fun other => if other = call then stage else s.stage other }

/-- One step, if the call has got so far. -/
def step (s : Calls ι ε α) : Event ι ε α → Option (Calls ι ε α)
  | .look call key =>
      match s.stage call with
      | .waiting =>
          match s.cache.get? key with
          | some made => some (s.enter call (.returned key (.ok made)))
          | none => some (s.enter call (.compiling key))
      | _ => none
  | .fail call key error =>
      match s.stage call with
      | .compiling key' =>
          if key' = key then some (s.enter call (.returned key (.error error))) else none
      | _ => none
  | .insert call key form =>
      match s.stage call with
      | .compiling key' =>
          if key' = key then
            let (kept, cache) := s.cache.offer key ⟨call, form⟩
            some ((Calls.mk cache s.stage).enter call (.returned key (.ok kept)))
          else none
      | _ => none

def run (s : Calls ι ε α) : List (Event ι ε α) → Option (Calls ι ε α)
  | [] => some s
  | event :: more =>
      match s.step event with
      | some t => t.run more
      | none => none

variable {s t : Calls ι ε α}

@[simp] theorem cache_enter (call : ι) (stage : Stage ι ε α) :
    (s.enter call stage).cache = s.cache := rfl

@[simp] theorem stage_enter_self (call : ι) (stage : Stage ι ε α) :
    (s.enter call stage).stage call = stage := if_pos rfl

theorem stage_enter_of_ne {call other : ι} (h : other ≠ call) (stage : Stage ι ε α) :
    (s.enter call stage).stage other = s.stage other := if_neg h

/-! ## What a step does -/

theorem step_look_hit {call : ι} {key : CacheKey} {made : Made ι α}
    (waiting : s.stage call = .waiting) (held : s.cache.get? key = some made) :
    s.step (.look call key) = some (s.enter call (.returned key (.ok made))) := by
  simp only [step, waiting, held]

theorem step_look_miss {call : ι} {key : CacheKey} (waiting : s.stage call = .waiting)
    (missing : s.cache.get? key = none) :
    s.step (.look call key) = some (s.enter call (.compiling key)) := by
  simp only [step, waiting, missing]

theorem step_fail {call : ι} {key : CacheKey} (compiling : s.stage call = .compiling key)
    (error : ε) :
    s.step (.fail call key error) = some (s.enter call (.returned key (.error error))) := by
  simp only [step, compiling, if_true]

theorem step_insert {call : ι} {key : CacheKey} (compiling : s.stage call = .compiling key)
    (form : α) :
    s.step (.insert call key form) =
      some ((Calls.mk (s.cache.offer key ⟨call, form⟩).2 s.stage).enter call
        (.returned key (.ok (s.cache.offer key ⟨call, form⟩).1))) := by
  simp only [step, compiling, if_true]

/-- The steps that there are, with what they need and what they make. -/
inductive Step (s : Calls ι ε α) : Event ι ε α → Calls ι ε α → Prop
  | hit {call : ι} {key : CacheKey} {made : Made ι α} (waiting : s.stage call = .waiting)
      (held : s.cache.get? key = some made) :
      Step s (.look call key) (s.enter call (.returned key (.ok made)))
  | miss {call : ι} {key : CacheKey} (waiting : s.stage call = .waiting)
      (missing : s.cache.get? key = none) :
      Step s (.look call key) (s.enter call (.compiling key))
  | fail {call : ι} {key : CacheKey} {error : ε} (compiling : s.stage call = .compiling key) :
      Step s (.fail call key error) (s.enter call (.returned key (.error error)))
  | insert {call : ι} {key : CacheKey} {form : α} (compiling : s.stage call = .compiling key) :
      Step s (.insert call key form)
        ((Calls.mk (s.cache.offer key ⟨call, form⟩).2 s.stage).enter call
          (.returned key (.ok (s.cache.offer key ⟨call, form⟩).1)))

theorem step_cases {event : Event ι ε α} (taken : s.step event = some t) : Step s event t := by
  cases event with
  | look call key =>
      cases stage : s.stage call with
      | waiting =>
          cases held : s.cache.get? key with
          | some made =>
              rw [step_look_hit stage held] at taken
              exact Option.some.inj taken ▸ .hit stage held
          | none =>
              rw [step_look_miss stage held] at taken
              exact Option.some.inj taken ▸ .miss stage held
      | compiling key' => simp [step, stage] at taken
      | returned key' result => simp [step, stage] at taken
  | fail call key error =>
      cases stage : s.stage call with
      | compiling key' =>
          by_cases same : key' = key
          · subst same
            rw [step_fail stage] at taken
            exact Option.some.inj taken ▸ .fail stage
          · simp [step, stage, same] at taken
      | waiting => simp [step, stage] at taken
      | returned key' result => simp [step, stage] at taken
  | insert call key form =>
      cases stage : s.stage call with
      | compiling key' =>
          by_cases same : key' = key
          · subst same
            rw [step_insert stage] at taken
            exact Option.some.inj taken ▸ .insert stage
          · simp [step, stage, same] at taken
      | waiting => simp [step, stage] at taken
      | returned key' result => simp [step, stage] at taken

theorem run_cons {event : Event ι ε α} {more : List (Event ι ε α)}
    (ran : s.run (event :: more) = some t) :
    ∃ mid, s.step event = some mid ∧ mid.run more = some t := by
  rw [run] at ran
  cases taken : s.step event with
  | some mid =>
      rw [taken] at ran
      exact ⟨mid, rfl, ran⟩
  | none =>
      rw [taken] at ran
      exact nomatch ran

/-- A run goes on with one step more. -/
theorem run_snoc {event : Event ι ε α} :
    ∀ {events : List (Event ι ε α)} {s mid t : Calls ι ε α}, s.run events = some mid →
      mid.step event = some t → s.run (events ++ [event]) = some t
  | [], s, mid, t, ran, taken => by
      rw [run, Option.some.injEq] at ran
      subst ran
      simp only [List.nil_append, run, taken]
  | first :: more, s, mid, t, ran, taken => by
      obtain ⟨next, before, rest⟩ := run_cons ran
      simp only [List.cons_append, run, before, run_snoc rest taken]

/-- What the calls have done to the cache, told from their steps. -/
structure Follows (history : List (Event ι ε α)) (s : Calls ι ε α) : Prop where
  tidy : s.cache.Tidy
  held : ∀ key, s.cache.get? key = Event.firstMade key history
  succeeded : ∀ call key made, s.stage call = .returned key (.ok made) →
    Event.firstMade key history = some made
  makers_once : (Event.makers history).Nodup
  makers_returned : ∀ call ∈ Event.makers history,
    ∃ key made, s.stage call = .returned key (.ok made)

theorem follows_start : Follows [] (start : Calls ι ε α) where
  tidy := Cache.tidy_empty
  held _ := rfl
  succeeded _ _ _ returned := nomatch returned
  makers_once := .nil
  makers_returned := nofun

/-- A step that offers nothing, and by which a call with no offer yet gets to another stage. -/
theorem follows_enter {history : List (Event ι ε α)} (follows : Follows history s)
    {event : Event ι ε α} (nothing : ∀ key, event.made? key = none) (nobody : event.maker? = none)
    {call : ι} (unmade : ∀ key made, s.stage call ≠ .returned key (.ok made))
    {stage : Stage ι ε α}
    (first : ∀ key made, stage = .returned key (.ok made) → s.cache.get? key = some made) :
    Follows (history ++ [event]) (s.enter call stage) := by
  have same : ∀ key, Event.firstMade key (history ++ [event]) = Event.firstMade key history := by
    intro key
    simp [Event.firstMade, nothing]
  have makers : Event.makers (history ++ [event]) = Event.makers history := by
    simp [Event.makers, nobody]
  refine ⟨follows.tidy, ?_, ?_, ?_, ?_⟩
  · intro key
    rw [same, ← follows.held, cache_enter]
  · intro other key made returned
    rw [same]
    by_cases self : other = call
    · subst self
      rw [stage_enter_self] at returned
      rw [← follows.held, first key made returned]
    · rw [stage_enter_of_ne self] at returned
      exact follows.succeeded other key made returned
  · rw [makers]
    exact follows.makers_once
  · rw [makers]
    intro other member
    obtain ⟨key, made, returned⟩ := follows.makers_returned other member
    have differ : other ≠ call := by
      rintro rfl
      exact unmade key made returned
    exact ⟨key, made, by rw [stage_enter_of_ne differ, returned]⟩

/-- An offer is first for its key if nothing was offered for the key before. -/
theorem follows_insert {history : List (Event ι ε α)} (follows : Follows history s) {call : ι}
    {key : CacheKey} (compiling : s.stage call = .compiling key) (form : α) :
    Follows (history ++ [.insert call key form])
      ((Calls.mk (s.cache.offer key ⟨call, form⟩).2 s.stage).enter call
        (.returned key (.ok (s.cache.offer key ⟨call, form⟩).1))) := by
  have first : ∀ other, Event.firstMade other (history ++ [.insert call key form]) =
      (s.cache.offer key ⟨call, form⟩).2.get? other := by
    intro other
    rw [Event.firstMade_append, ← follows.held]
    by_cases same : other = key
    · subst same
      rw [Cache.get?_offer_self, Cache.offer_fst]
      cases s.cache.get? other <;> simp [Event.firstMade, Event.made?]
    · rw [Cache.get?_offer_of_ne _ _ same]
      cases s.cache.get? other <;> simp [Event.firstMade, Event.made?, Ne.symm same]
  have makers : Event.makers (history ++ [.insert call key form]) =
      Event.makers history ++ [call] := by
    simp [Event.makers, Event.maker?]
  have unmade : ∀ other ∈ Event.makers history, other ≠ call := by
    rintro other member rfl
    obtain ⟨_, _, returned⟩ := follows.makers_returned other member
    rw [compiling] at returned
    exact nomatch returned
  refine ⟨Cache.tidy_offer follows.tidy _ _, fun other => (first other).symm, ?_, ?_, ?_⟩
  · intro other key' made returned
    rw [first]
    by_cases self : other = call
    · subst self
      rw [stage_enter_self] at returned
      obtain ⟨rfl, kept⟩ := Stage.returned.inj returned
      rw [Cache.get?_offer_self, Except.ok.inj kept]
    · rw [stage_enter_of_ne self] at returned
      refine Cache.get?_offer_of_some _ _ ?_
      rw [follows.held, follows.succeeded other key' made returned]
  · rw [makers]
    refine List.nodup_append.2 ⟨follows.makers_once, List.nodup_singleton _, ?_⟩
    rintro other member _ last rfl
    exact unmade other member (List.mem_singleton.1 last)
  · rw [makers]
    intro other member
    rcases List.mem_append.1 member with before | last
    · obtain ⟨key', made, returned⟩ := follows.makers_returned other before
      exact ⟨key', made, by rw [stage_enter_of_ne (unmade other before), returned]⟩
    · rw [List.mem_singleton] at last
      exact ⟨key, _, by rw [last, stage_enter_self]⟩

theorem follows_step {history : List (Event ι ε α)} (follows : Follows history s)
    {event : Event ι ε α} (taken : s.step event = some t) : Follows (history ++ [event]) t := by
  cases step_cases taken with
  | hit waiting held =>
      apply follows_enter follows (fun _ => rfl) rfl
      · intro _ _
        rw [waiting]
        nofun
      · intro _ _ same
        obtain ⟨rfl, kept⟩ := Stage.returned.inj same
        rw [held, Except.ok.inj kept]
  | miss waiting missing =>
      apply follows_enter follows (fun _ => rfl) rfl
      · intro _ _
        rw [waiting]
        nofun
      · nofun
  | fail compiling =>
      apply follows_enter follows (fun _ => rfl) rfl
      · intro _ _
        rw [compiling]
        nofun
      · nofun
  | insert compiling => exact follows_insert follows compiling _

theorem follows_run :
    ∀ (events history : List (Event ι ε α)) (s t : Calls ι ε α), Follows history s →
      s.run events = some t → Follows (history ++ events) t
  | [], history, s, t, follows, ran => by
      rw [run, Option.some.injEq] at ran
      rw [List.append_nil, ← ran]
      exact follows
  | event :: more, history, s, t, follows, ran => by
      obtain ⟨mid, taken, rest⟩ := run_cons ran
      rw [← List.singleton_append, ← List.append_assoc]
      exact follows_run more _ mid t (follows_step follows taken) rest

/-! ## What happens to the forms -/

/-- A step changes nothing under a key that its call is not for. -/
theorem get?_step_of_ne {event : Event ι ε α} (taken : s.step event = some t) {key : CacheKey}
    (other : key ≠ event.key) : t.cache.get? key = s.cache.get? key := by
  cases step_cases taken with
  | hit | miss | fail => rfl
  | insert => exact Cache.get?_offer_of_ne _ _ other

/-- A step that is no offer leaves the cache as it is. -/
theorem cache_step_of_not_insert {event : Event ι ε α} (taken : s.step event = some t)
    (nobody : event.maker? = none) : t.cache = s.cache := by
  cases step_cases taken with
  | hit | miss | fail => rfl
  | insert => exact nomatch nobody

theorem get?_step_of_some {event : Event ι ε α} (taken : s.step event = some t) {key : CacheKey}
    {made : Made ι α} (held : s.cache.get? key = some made) : t.cache.get? key = some made := by
  cases step_cases taken with
  | hit | miss | fail => exact held
  | insert => exact Cache.get?_offer_of_some _ _ held

/-- What is kept stays, whatever is done later. -/
theorem get?_run_of_some {key : CacheKey} {made : Made ι α} :
    ∀ (events : List (Event ι ε α)) (s t : Calls ι ε α), s.run events = some t →
      s.cache.get? key = some made → t.cache.get? key = some made
  | [], s, t, ran, held => by
      rw [run, Option.some.injEq] at ran
      rw [← ran, held]
  | event :: more, s, t, ran, held => by
      obtain ⟨mid, taken, rest⟩ := run_cons ran
      exact get?_run_of_some more mid t rest (get?_step_of_some taken held)

/-- The size is the number of keys for which something was offered. -/
theorem size_of_follows {history : List (Event ι ε α)} (follows : Follows history s) :
    s.cache.size = (Event.insertedKeys history).dedup.length := by
  rw [Cache.size_eq_length_keys]
  refine List.Perm.length_eq ?_
  refine (List.perm_ext_iff_of_nodup (Cache.nodup_keys follows.tidy) (List.nodup_dedup _)).2 ?_
  intro key
  rw [Cache.mem_keys_iff follows.tidy, follows.held, Event.firstMade_isSome_iff, List.mem_dedup]

/-! ## The account of a run -/

/-- What holds after the steps of a history, and of the steps that may follow. -/
structure Account (history : List (Event ι ε α)) (s : Calls ι ε α) : Prop where
  -- All calls for a key return the first object offered for it, and a call that fails offers none.
  held : ∀ key, s.cache.get? key = Event.firstMade key history
  succeeded : ∀ call key made, s.stage call = .returned key (.ok made) →
    Event.firstMade key history = some made
  makers_once : (Event.makers history).Nodup
  failed : ∀ call key error, s.stage call = .returned key (.error error) →
    call ∉ Event.makers history
  -- What the cache counts is what has been offered.
  size : s.cache.size = (Event.insertedKeys history).dedup.length
  isEmpty : s.cache.isEmpty = true ↔ s.cache.size = 0
  contains : ∀ template, s.cache.contains template = true ↔
    ∃ variant made, s.cache.get? ⟨template, variant⟩ = some made
  -- What is kept stays through every later run, and a step touches only the key that it is for.
  kept : ∀ events t key made, s.run events = some t → s.cache.get? key = some made →
    t.cache.get? key = some made
  frame : ∀ event t key, s.step event = some t → key ≠ event.key →
    t.cache.get? key = s.cache.get? key
  fail_frame : ∀ call key error t, s.step (.fail call key error) = some t → t.cache = s.cache
  -- A call that has got so far can go on.
  can_look : ∀ call key, s.stage call = .waiting → ∃ t, s.step (.look call key) = some t ∧
    (t.stage call = .compiling key ∨ ∃ made, t.stage call = .returned key (.ok made))
  can_fail : ∀ call key error, s.stage call = .compiling key →
    ∃ t, s.step (.fail call key error) = some t ∧ t.stage call = .returned key (.error error)
  can_insert : ∀ call key form, s.stage call = .compiling key →
    ∃ t made, s.step (.insert call key form) = some t ∧ t.stage call = .returned key (.ok made)
  -- `Cache.fetch` is a call: a look and, on a miss, the steps of its compiler and then a failure or
  -- an offer.
  fetch_hit : ∀ call key made, s.stage call = .waiting → s.cache.get? key = some made →
    ∀ compile : Cache (Made ι α) → Except ε (Made ι α) × Cache (Made ι α),
      ∃ t, s.step (.look call key) = some t ∧ t.stage call = .returned key (.ok made) ∧
        s.cache.fetch key compile = (.ok made, t.cache)
  fetch_fail : ∀ call key error inner mid, s.cache.get? key = none →
    s.run (.look call key :: inner) = some mid → mid.stage call = .compiling key →
    ∀ compile : Cache (Made ι α) → Except ε (Made ι α) × Cache (Made ι α),
      compile s.cache = (.error error, mid.cache) →
      ∃ t, s.run (.look call key :: inner ++ [.fail call key error]) = some t ∧
        t.stage call = .returned key (.error error) ∧
        s.cache.fetch key compile = (.error error, t.cache)
  fetch_insert : ∀ call key form inner mid, s.cache.get? key = none →
    s.run (.look call key :: inner) = some mid → mid.stage call = .compiling key →
    ∀ compile : Cache (Made ι α) → Except ε (Made ι α) × Cache (Made ι α),
      compile s.cache = (.ok ⟨call, form⟩, mid.cache) →
      ∃ t made, s.run (.look call key :: inner ++ [.insert call key form]) = some t ∧
        t.stage call = .returned key (.ok made) ∧
        s.cache.fetch key compile = (.ok made, t.cache)

theorem account_of_follows {history : List (Event ι ε α)} (follows : Follows history s) :
    Account history s where
  held := follows.held
  succeeded := follows.succeeded
  makers_once := follows.makers_once
  failed call key error returned member := by
    obtain ⟨key', made, succeeded⟩ := follows.makers_returned call member
    rw [returned] at succeeded
    exact nomatch succeeded
  size := size_of_follows follows
  isEmpty := Cache.isEmpty_iff follows.tidy
  contains template := by
    rw [Cache.contains_iff follows.tidy]
    simp only [Option.isSome_iff_exists]
  kept events t _ _ ran held := get?_run_of_some events s t ran held
  frame _ _ _ taken other := get?_step_of_ne taken other
  fail_frame _ _ _ _ taken := cache_step_of_not_insert taken rfl
  can_look call key waiting := by
    cases held : s.cache.get? key with
    | some made => exact ⟨_, step_look_hit waiting held, .inr ⟨made, stage_enter_self ..⟩⟩
    | none => exact ⟨_, step_look_miss waiting held, .inl (stage_enter_self ..)⟩
  can_fail call key error compiling := ⟨_, step_fail compiling error, stage_enter_self ..⟩
  can_insert call key form compiling := ⟨_, _, step_insert compiling form, stage_enter_self ..⟩
  fetch_hit call key made waiting held compile := by
    refine ⟨_, step_look_hit waiting held, stage_enter_self .., ?_⟩
    simp only [Cache.fetch, held, cache_enter]
  fetch_fail call key error inner mid missing ran compiling compile compiled := by
    refine ⟨_, run_snoc ran (step_fail compiling error), stage_enter_self .., ?_⟩
    simp only [Cache.fetch, missing, compiled, cache_enter]
  fetch_insert call key form inner mid missing ran compiling compile compiled := by
    refine ⟨_, _, run_snoc ran (step_insert compiling form), stage_enter_self .., ?_⟩
    simp only [Cache.fetch, missing, compiled, cache_enter]

/-- Every run of calls gives an account of itself, and templates that are made each for itself
share no key. -/
theorem account_of_run {events : List (Event ι ε α)} (ran : start.run events = some s) :
    Account events s ∧
      ∀ made : List (List Text), made.length < UInt64.size →
        ∀ (j k : Nat) (hj : j < (Issuer.start.createAll made).1.length)
          (hk : k < (Issuer.start.createAll made).1.length) (v w : Text),
          CacheKey.mk ((Issuer.start.createAll made).1[j]).id v =
            CacheKey.mk ((Issuer.start.createAll made).1[k]).id w ↔ j = k ∧ v = w := by
  refine ⟨account_of_follows (follows_run events [] start s follows_start ran), ?_⟩
  intro made few j k hj hk v w
  constructor
  · intro same
    obtain ⟨sameTemplate, sameVariant⟩ := CacheKey.mk.inj same
    exact ⟨Issuer.createAll_id_inj few hj hk sameTemplate, sameVariant⟩
  · rintro ⟨rfl, rfl⟩
    rfl

/-- A call fails after another that its compiler has made for its own key has succeeded, and of two
calls for a second key the one that looked first comes last with its offer. -/
def mixed (first second : CacheKey) : List (Event Nat Unit Text) := [
  .look 0 first, .look 1 first, .insert 1 first ['a'], .fail 0 first (), .look 2 first,
  .look 3 second, .look 4 second, .insert 4 second ['b'], .insert 3 second ['c']]

/-- The calls for two templates with the same fragments. -/
theorem account_mixed :
    ∃ s, start.run (mixed ⟨1, []⟩ ⟨2, []⟩) = some s ∧
      s.stage 0 = .returned ⟨1, []⟩ (.error ()) ∧
      s.stage 2 = .returned ⟨1, []⟩ (.ok ⟨1, ['a']⟩) ∧
      s.stage 3 = .returned ⟨2, []⟩ (.ok ⟨4, ['b']⟩) ∧
      s.cache.get? ⟨1, []⟩ = some ⟨1, ['a']⟩ ∧ s.cache.get? ⟨2, []⟩ = some ⟨4, ['b']⟩ ∧
      s.cache.size = 2 ∧ ¬ s.cache.isEmpty = true ∧
      (Issuer.start.createAll [[], []]).1.map Template.id = [1, 2] ∧
      CacheKey.mk 1 [] ≠ CacheKey.mk 2 [] := by
  have ran : start.run (mixed ⟨1, []⟩ ⟨2, []⟩) = some _ := rfl
  obtain ⟨account, apart⟩ := account_of_run ran
  have size : _ = 2 := account.size
  refine ⟨_, rfl, rfl, rfl, rfl, account.held _, account.held _, size, ?_, rfl, ?_⟩
  · rw [account.isEmpty, size]
    decide
  · intro same
    have together := (apart [[], []] (by decide) 0 1 (by decide) (by decide) [] []).1 same
    exact absurd together.1 (by decide)

end Calls

end Stencil
