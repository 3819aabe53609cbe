/-
Runs of calls that may fault.

A component answers one call at a time and may fault on a call.  A run is a
list of calls; it returns every answer, or the fault it met.  A condition on
single steps is carried along a run by `RunMeets`, and `runCalls_invariant`
turns a fact about one call into a fact about every run.
-/

import Aesd.UnlessStopped

set_option autoImplicit false

namespace Aesd.CallRun

open BoundedLoop UnlessStopped

variable {State Call Reply Error : Type}

def runCalls (step : State → Call → Except Error (Reply × State)) :
    State → List Call → Except Error (List Reply × State)
  | state, [] => .ok ([], state)
  | state, call :: calls => do
      let (reply, after) ← step state call
      let (replies, last) ← runCalls step after calls
      return (reply :: replies, last)

/-- Every call of the run meets the condition in the state it is made in. -/
def RunMeets (step : State → Call → Except Error (Reply × State))
    (condition : State → Call → Prop) : State → List Call → Prop
  | _, [] => True
  | state, call :: calls =>
      condition state call ∧
        ∀ reply after, step state call = .ok (reply, after) → RunMeets step condition after calls

section Rules

variable {step : State → Call → Except Error (Reply × State)}
  {condition : State → Call → Prop}

@[simp] theorem runCalls_nil (state : State) : runCalls step state [] = .ok ([], state) := rfl

theorem runCalls_cons {state after last : State} {call : Call} {calls : List Call} {reply : Reply}
    {replies : List Reply} (first : step state call = .ok (reply, after))
    (rest : runCalls step after calls = .ok (replies, last)) :
    runCalls step state (call :: calls) = .ok (reply :: replies, last) := by
  simp only [runCalls, first, ok_bind, rest]
  rfl

theorem runCalls_cons_cases {state last : State} {call : Call} {calls : List Call}
    {replies : List Reply} (ran : runCalls step state (call :: calls) = .ok (replies, last)) :
    ∃ reply after others, step state call = .ok (reply, after) ∧
      runCalls step after calls = .ok (others, last) ∧ replies = reply :: others := by
  obtain ⟨⟨reply, after⟩, made, onward⟩ := ok_of_bind ran
  obtain ⟨⟨others, reached⟩, rest, same⟩ := ok_of_bind onward
  cases same
  exact ⟨reply, after, others, made, rest, rfl⟩

theorem runMeets_of_forall {calls : List Call}
    (all : ∀ state call, call ∈ calls → condition state call) (state : State) :
    RunMeets step condition state calls := by
  induction calls generalizing state with
  | nil => exact True.intro
  | cons call calls ih =>
      refine ⟨all state call List.mem_cons_self, ?_⟩
      intro _reply after _result
      exact ih (fun state other member => all state other (List.mem_cons_of_mem call member)) after

theorem runMeets_any (calls : List Call) (state : State) :
    RunMeets step (fun _state _call => True) state calls :=
  runMeets_of_forall (fun _state _call _member => True.intro) state

theorem runMeets_earlier {earlier calls : List Call} (before : earlier <+: calls) {state : State}
    (meets : RunMeets step condition state calls) : RunMeets step condition state earlier := by
  induction earlier generalizing state calls with
  | nil => exact True.intro
  | cons call earlier ih =>
      obtain ⟨rest, rfl⟩ := before
      refine ⟨meets.1, ?_⟩
      intro reply after made
      exact ih (List.prefix_append earlier rest) (meets.2 reply after made)

/-- Whether a run meets a condition is found out by running it. -/
instance decidableRunMeets [∀ state call, Decidable (condition state call)] (calls : List Call) :
    ∀ state, Decidable (RunMeets step condition state calls) :=
  match calls with
  | [] => fun _state => isTrue True.intro
  | call :: calls => fun state =>
      have later := decidableRunMeets calls
      match made : step state call with
      | .error _error => decidable_of_iff (condition state call) (by
          refine ⟨fun here => ⟨here, ?_⟩, fun meets => meets.1⟩
          intro reply after other
          rw [made] at other
          cases other)
      | .ok (reply, after) =>
          have next := later after
          decidable_of_iff (condition state call ∧ RunMeets step condition after calls) (by
            refine ⟨fun meets => ⟨meets.1, ?_⟩, fun meets => ⟨meets.1, meets.2 _ _ made⟩⟩
            intro otherReply other same
            rw [made] at same
            cases same
            exact meets.2)

/-- One run after another. -/
theorem runCalls_append {state middle last : State} {first second : List Call}
    {firstReplies secondReplies : List Reply}
    (before : runCalls step state first = .ok (firstReplies, middle))
    (behind : runCalls step middle second = .ok (secondReplies, last)) :
    runCalls step state (first ++ second) = .ok (firstReplies ++ secondReplies, last) := by
  induction first generalizing state firstReplies with
  | nil =>
      cases before
      exact behind
  | cons call calls ih =>
      obtain ⟨reply, after, others, made, ran, rfl⟩ := runCalls_cons_cases before
      exact runCalls_cons made (ih ran)

/-- A component that answers at least the same calls makes the same runs. -/
theorem runCalls_agree {other : State → Call → Except Error (Reply × State)}
    (agree : ∀ state call answer, step state call = .ok answer → other state call = .ok answer)
    {calls : List Call} {state : State} {result : List Reply × State}
    (ran : runCalls step state calls = .ok result) : runCalls other state calls = .ok result := by
  induction calls generalizing state result with
  | nil => exact ran
  | cons call calls ih =>
      obtain ⟨replies, last⟩ := result
      obtain ⟨reply, after, others, made, rest, rfl⟩ := runCalls_cons_cases ran
      exact runCalls_cons (agree _ _ _ made) (ih rest)

/-- What one call keeps under the condition, every run that meets it keeps; no
such run faults. -/
theorem runCalls_invariant {Invariant : State → Prop}
    (one : ∀ state call, Invariant state → condition state call →
      ∃ reply after, step state call = .ok (reply, after) ∧ Invariant after)
    {calls : List Call} {state : State} (initially : Invariant state)
    (meets : RunMeets step condition state calls) :
    ∃ replies last, runCalls step state calls = .ok (replies, last) ∧ Invariant last := by
  induction calls generalizing state with
  | nil => exact ⟨[], state, rfl, initially⟩
  | cons call calls ih =>
      obtain ⟨here, later⟩ := meets
      obtain ⟨reply, after, made, kept⟩ := one state call initially here
      obtain ⟨replies, last, ran, reached⟩ := ih kept (later reply after made)
      exact ⟨reply :: replies, last, runCalls_cons made ran, reached⟩

/-- A relation to the calls and replies so far, over a run that came to its end. -/
theorem runCalls_traces {Related : State → List Call → List Reply → Prop}
    (earlier : List Call) (before : List Reply)
    (one : ∀ state calls replies call reply after, Related state calls replies →
      condition state call → step state call = .ok (reply, after) →
      Related after (calls ++ [call]) (replies ++ [reply]))
    {calls : List Call} {replies : List Reply} {state last : State}
    (initially : Related state earlier before) (meets : RunMeets step condition state calls)
    (ran : runCalls step state calls = .ok (replies, last)) :
    Related last (earlier ++ calls) (before ++ replies) := by
  induction calls generalizing state earlier before replies with
  | nil =>
      cases ran
      rw [List.append_nil, List.append_nil]
      exact initially
  | cons call calls ih =>
      obtain ⟨here, later⟩ := meets
      obtain ⟨reply, after, others, made, rest, rfl⟩ := runCalls_cons_cases ran
      have kept := one state earlier before call reply after initially here made
      have whole := ih _ _ kept (later reply after made) rest
      rw [List.append_assoc, List.append_assoc] at whole
      exact whole

/-- The same for the calls alone. -/
theorem runCalls_follows {Related : State → List Call → Prop} (earlier : List Call)
    (one : ∀ state earlier call reply after, Related state earlier → condition state call →
      step state call = .ok (reply, after) → Related after (earlier ++ [call]))
    {calls : List Call} {state last : State} {replies : List Reply}
    (initially : Related state earlier) (meets : RunMeets step condition state calls)
    (ran : runCalls step state calls = .ok (replies, last)) :
    Related last (earlier ++ calls) := by
  let Traced (state : State) (calls : List Call) (_replies : List Reply) : Prop :=
    Related state calls
  have traced : ∀ state calls replies call reply after, Traced state calls replies →
      condition state call → step state call = .ok (reply, after) →
      Traced after (calls ++ [call]) (replies ++ [reply]) :=
    fun state calls _replies call reply after => one state calls call reply after
  have start : Traced state earlier [] := initially
  exact runCalls_traces earlier [] traced start meets ran

/-- The same for the replies alone. -/
theorem runCalls_replies {Related : State → List Reply → Prop} (before : List Reply)
    (one : ∀ state before call reply after, Related state before → condition state call →
      step state call = .ok (reply, after) → Related after (before ++ [reply]))
    {calls : List Call} {state last : State} {replies : List Reply}
    (initially : Related state before) (meets : RunMeets step condition state calls)
    (ran : runCalls step state calls = .ok (replies, last)) :
    Related last (before ++ replies) := by
  let Traced (state : State) (_calls : List Call) (replies : List Reply) : Prop :=
    Related state replies
  have traced : ∀ state calls replies call reply after, Traced state calls replies →
      condition state call → step state call = .ok (reply, after) →
      Traced after (calls ++ [call]) (replies ++ [reply]) :=
    fun state _calls replies call reply after => one state replies call reply after
  have start : Traced state [] before := initially
  exact runCalls_traces [] before traced start meets ran

/-- The same for the state alone. -/
theorem runCalls_keeps {Invariant : State → Prop}
    (one : ∀ state call reply after, Invariant state → condition state call →
      step state call = .ok (reply, after) → Invariant after)
    {calls : List Call} {state last : State} {replies : List Reply}
    (initially : Invariant state) (meets : RunMeets step condition state calls)
    (ran : runCalls step state calls = .ok (replies, last)) : Invariant last := by
  let Traced (state : State) (_calls : List Call) (_replies : List Reply) : Prop := Invariant state
  have traced : ∀ state calls replies call reply after, Traced state calls replies →
      condition state call → step state call = .ok (reply, after) →
      Traced after (calls ++ [call]) (replies ++ [reply]) :=
    fun state _calls _replies call reply after => one state call reply after
  have start : Traced state [] [] := initially
  exact runCalls_traces [] [] traced start meets ran

/-- A run stops at the first call that stops. -/
theorem runCalls_error_iff {calls : List Call} {state : State} {error : Error} :
    runCalls step state calls = .error error ↔
      ∃ before call later replies middle, calls = before ++ call :: later ∧
        runCalls step state before = .ok (replies, middle) ∧ step middle call = .error error := by
  constructor
  · intro stopped
    induction calls generalizing state with
    | nil => cases stopped
    | cons call calls ih =>
        cases first : step state call with
        | error here =>
            simp only [runCalls, first, error_bind] at stopped
            cases stopped
            exact ⟨[], call, calls, [], state, rfl, rfl, first⟩
        | ok answer =>
            obtain ⟨reply, after⟩ := answer
            have later : runCalls step after calls = .error error := by
              cases rest : runCalls step after calls with
              | error other =>
                  simp only [runCalls, first, ok_bind, rest, error_bind] at stopped
                  exact stopped
              | ok behind =>
                  simp only [runCalls, first, ok_bind, rest] at stopped
                  cases stopped
            obtain ⟨before, other, others, replies, middle, rfl, ran, last⟩ := ih later
            exact ⟨call :: before, other, others, reply :: replies, middle, rfl,
              runCalls_cons first ran, last⟩
  · rintro ⟨before, call, later, replies, middle, rfl, ran, stopped⟩
    induction before generalizing state replies with
    | nil =>
        cases ran
        simp only [List.nil_append, runCalls, stopped, error_bind]
    | cons earlier before ih =>
        obtain ⟨reply, after, others, made, rest, rfl⟩ := runCalls_cons_cases ran
        simp only [List.cons_append, runCalls, made, ok_bind, ih others rest, error_bind]

/-- What the calls of a run weigh, each in the state it is made in. -/
def tally (step : State → Call → Except Error (Reply × State)) (weight : State → Call → Nat) :
    State → List Call → Nat
  | _, [] => 0
  | state, call :: calls =>
      weight state call +
        match step state call with
        | .ok (_reply, after) => tally step weight after calls
        | .error _error => 0

/-- A relation between two tallies, over a run that came to its end. -/
theorem runCalls_tallies (first second : State → Call → Nat) (given taken : Nat)
    {Related : State → Nat → Nat → Prop}
    (one : ∀ state call reply after given taken, Related state given taken →
      step state call = .ok (reply, after) →
      Related after (given + first state call) (taken + second state call))
    {calls : List Call} {state last : State} {replies : List Reply}
    (initially : Related state given taken)
    (ran : runCalls step state calls = .ok (replies, last)) :
    Related last (given + tally step first state calls) (taken + tally step second state calls) := by
  induction calls generalizing state given taken replies with
  | nil =>
      cases ran
      exact initially
  | cons call calls ih =>
      obtain ⟨reply, after, others, made, rest, rfl⟩ := runCalls_cons_cases ran
      have following := ih _ _ (one state call reply after given taken initially made) rest
      simp only [tally, made]
      rw [← Nat.add_assoc, ← Nat.add_assoc]
      exact following

/-- The same for one tally. -/
theorem runCalls_tally (weight : State → Call → Nat) (count : Nat) {Related : State → Nat → Prop}
    (one : ∀ state call reply after count, Related state count →
      step state call = .ok (reply, after) → Related after (count + weight state call))
    {calls : List Call} {state last : State} {replies : List Reply}
    (initially : Related state count) (ran : runCalls step state calls = .ok (replies, last)) :
    Related last (count + tally step weight state calls) := by
  let Counted (state : State) (count _other : Nat) : Prop := Related state count
  have counts : ∀ state call reply after count other, Counted state count other →
      step state call = .ok (reply, after) →
      Counted after (count + weight state call) (other + weight state call) :=
    fun state call reply after count _other => one state call reply after count
  have start : Counted state count 0 := initially
  exact runCalls_tallies weight weight count 0 counts start ran

/-- What another component makes of each call, it makes of a whole run. -/
theorem runCalls_simulated {Other OtherCall OtherReply OtherError : Type}
    {other : Other → OtherCall → Except OtherError (OtherReply × Other)}
    {Related : State → Other → Prop}
    (one : ∀ state call reply after matching, Related state matching →
      step state call = .ok (reply, after) →
      ∃ calls replies reached, runCalls other matching calls = .ok (replies, reached) ∧
        Related after reached)
    {calls : List Call} {replies : List Reply} {state last : State} {matching : Other}
    (initially : Related state matching)
    (ran : runCalls step state calls = .ok (replies, last)) :
    ∃ others answers reached, runCalls other matching others = .ok (answers, reached) ∧
      Related last reached := by
  let Matched (state : State) : Prop :=
    ∃ others answers reached, runCalls other matching others = .ok (answers, reached) ∧
      Related state reached
  have kept : ∀ state call reply after, Matched state → True →
      step state call = .ok (reply, after) → Matched after := by
    intro state call reply after matched _any made
    obtain ⟨others, answers, reached, before, related⟩ := matched
    obtain ⟨calls, replies, following, behind, relatedAfter⟩ :=
      one state call reply after reached related made
    exact ⟨others ++ calls, answers ++ replies, following, runCalls_append before behind,
      relatedAfter⟩
  have start : Matched state := ⟨[], [], matching, rfl, initially⟩
  exact runCalls_keeps kept start (runMeets_any calls state) ran

end Rules

section Agreement

variable {Other OtherCall : Type}

/-- Two components answer alike: they stop with one error, or they return one
reply and their states are related again. -/
inductive Alike (Related : State → Other → Prop) :
    Except Error (Reply × State) → Except Error (Reply × Other) → Prop where
  | stopped (error : Error) : Alike Related (.error error) (.error error)
  | answered (reply : Reply) {after : State} {reached : Other} (related : Related after reached) :
      Alike Related (.ok (reply, after)) (.ok (reply, reached))

variable {Related : State → Other → Prop}

theorem Alike.of_ok {second : Except Error (Reply × Other)} {reply : Reply} {after : State}
    (alike : Alike Related (.ok (reply, after)) second) :
    ∃ reached, second = .ok (reply, reached) ∧ Related after reached := by
  cases alike with
  | answered _reply related => exact ⟨_, rfl, related⟩

theorem Alike.of_error {second : Except Error (Reply × Other)} {error : Error}
    (alike : Alike Related (.error error) second) : second = .error error := by
  cases alike with
  | stopped _error => rfl

theorem Alike.replies_eq {first : Except Error (Reply × State)}
    {second : Except Error (Reply × Other)} (alike : Alike Related first second) :
    first.map Prod.fst = second.map Prod.fst := by
  cases alike with
  | stopped error => rfl
  | answered reply related => rfl

variable {step : State → Call → Except Error (Reply × State)}
  {other : Other → OtherCall → Except Error (Reply × Other)} {Matching : Call → OtherCall → Prop}

theorem exists_matching (each : ∀ call, ∃ request, Matching call request) (calls : List Call) :
    ∃ requests, List.Forall₂ Matching calls requests := by
  induction calls with
  | nil => exact ⟨[], .nil⟩
  | cons call calls ih =>
      obtain ⟨request, here⟩ := each call
      obtain ⟨requests, later⟩ := ih
      exact ⟨request :: requests, .cons here later⟩

theorem matching_map {view : OtherCall → Call} {calls : List Call} {requests : List OtherCall}
    (same : List.Forall₂ (fun call request => view request = call) calls requests) :
    requests.map view = calls := by
  induction same with
  | nil => rfl
  | cons here _later ih => exact congrArg₂ List.cons here ih

/-- Components that answer matching calls alike answer matching runs alike. -/
theorem runCalls_alike
    (one : ∀ state matching call, Related state matching →
      ∃ request, Matching call request ∧ Alike Related (step state call) (other matching request))
    (calls : List Call) {state : State} {matching : Other} (initially : Related state matching) :
    ∃ requests, List.Forall₂ Matching calls requests ∧
      Alike Related (runCalls step state calls) (runCalls other matching requests) := by
  induction calls generalizing state matching with
  | nil => exact ⟨[], .nil, .answered [] initially⟩
  | cons call calls ih =>
      obtain ⟨request, here, alike⟩ := one state matching call initially
      simp only [runCalls]
      cases first : step state call with
      | error error =>
          rw [first] at alike
          -- The rest of the run is matched, but neither component gets there.
          obtain ⟨requests, later⟩ := exists_matching
            (fun call => (one state matching call initially).imp fun _request both => both.1) calls
          refine ⟨request :: requests, .cons here later, ?_⟩
          simp only [runCalls, alike.of_error]
          exact .stopped error
      | ok answer =>
          obtain ⟨reply, after⟩ := answer
          rw [first] at alike
          obtain ⟨reached, second, related⟩ := alike.of_ok
          obtain ⟨requests, later, behind⟩ := ih related
          refine ⟨request :: requests, .cons here later, ?_⟩
          simp only [runCalls, second, ok_bind]
          generalize runCalls step after calls = mine at behind ⊢
          generalize runCalls other reached requests = theirs at behind ⊢
          cases behind with
          | stopped error => exact .stopped error
          | answered replies last => exact .answered (reply :: replies) last

end Agreement

end Aesd.CallRun
