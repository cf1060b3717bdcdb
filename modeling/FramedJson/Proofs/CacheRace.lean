import FramedJson.CacheRace
import FramedJson.Proofs.Race
import FramedJson.Proofs.Resolutions
import Mathlib.Data.List.Forall2

/-!
What a race on one cache comes to, told from the calls alone. In each round a subject that is still
unknown takes the id of the first call in the list that succeeds in that round; so the entry in the end
is that of the success with the least delay, and among equal delays the first. Calls on other subjects
make no difference.
-/
namespace FramedJson.CacheRace

open Resolutions (Stands)

section Brought

variable {subject : String} {round : Nat} {calls : List ResolveCall} {id : UInt32}

/-- The id that the calls have for the subject in a round: that of the first in the list that has then
waited long enough and succeeds. -/
def brought (subject : String) (round : Nat) (calls : List ResolveCall) : Option UInt32 :=
  calls.findSome? fun call =>
    if call.subject = subject ∧ call.delay = round then call.outcome.toOption else none

theorem brought_append (subject : String) (round : Nat) (before after : List ResolveCall) :
    brought subject round (before ++ after) =
      (brought subject round before).or (brought subject round after) :=
  List.findSome?_append

theorem brought_cons (subject : String) (round : Nat) (call : ResolveCall)
    (rest : List ResolveCall) :
    brought subject round (call :: rest) =
      (brought subject round [call]).or (brought subject round rest) :=
  brought_append subject round [call] rest

theorem brought_one (subject : String) (round : Nat) (call : ResolveCall) :
    brought subject round [call] =
      if call.subject = subject ∧ call.delay = round then call.outcome.toOption else none :=
  List.findSome?_singleton

theorem brought_one_some {call : ResolveCall} (brings : brought subject round [call] = some id) :
    call = ⟨subject, round, .ok id⟩ := by
  rw [brought_one] at brings
  split at brings
  · rename_i own
    have succeeds := Outcome.toOption_some brings
    obtain ⟨name, delay, outcome⟩ := call
    obtain ⟨rfl, rfl⟩ := own
    cases succeeds
    rfl
  · cases brings

theorem brought_own (subject : String) (round : Nat) (id : UInt32) :
    brought subject round [⟨subject, round, .ok id⟩] = some id := by
  rw [brought_one, if_pos ⟨rfl, rfl⟩]
  rfl

theorem brought_none_iff :
    brought subject round calls = none ↔ ∀ id, ⟨subject, round, .ok id⟩ ∉ calls := by
  induction calls with
  | nil => simp [brought]
  | cons call rest ih =>
    rw [brought_cons, Option.or_eq_none_iff, ih]
    constructor
    · rintro ⟨here, others⟩ id member
      rcases List.mem_cons.mp member with same | member
      · rw [← same, brought_own] at here
        cases here
      · exact others id member
    · intro none
      refine ⟨?_, fun id member => none id (List.mem_cons_of_mem call member)⟩
      cases here : brought subject round [call] with
      | none => rfl
      | some id =>
        rw [brought_one_some here] at none
        exact absurd List.mem_cons_self (none id)

theorem brought_some_iff :
    brought subject round calls = some id ↔ ∃ i : Nat, calls[i]? = some ⟨subject, round, .ok id⟩ ∧
      ∀ (j : Nat) other, calls[j]? = some ⟨subject, round, .ok other⟩ → i ≤ j := by
  induction calls with
  | nil => simp [brought]
  | cons call rest ih =>
    rw [brought_cons]
    cases here : brought subject round [call] with
    | some first =>
      have own := brought_one_some here
      rw [Option.some_or]
      constructor
      · rintro ⟨rfl⟩
        exact ⟨0, by simp [own], fun j _ _ => Nat.zero_le j⟩
      · rintro ⟨i, at_i, least⟩
        have zero : i = 0 := Nat.le_zero.mp (least 0 first (by simp [own]))
        subst zero
        rw [List.getElem?_cons_zero, own] at at_i
        cases at_i
        rfl
    | none =>
      have different : ∀ other, call ≠ ⟨subject, round, .ok other⟩ := by
        rintro other rfl
        rw [brought_own] at here
        cases here
      rw [Option.none_or, ih]
      constructor
      · rintro ⟨i, at_i, least⟩
        refine ⟨i + 1, at_i, ?_⟩
        intro j other at_j
        cases j with
        | zero => exact absurd (Option.some.inj at_j) (different other)
        | succ j => exact Nat.succ_le_succ (least j other at_j)
      · rintro ⟨i, at_i, least⟩
        cases i with
        | zero => exact absurd (Option.some.inj at_i) (different id)
        | succ i =>
          refine ⟨i, at_i, ?_⟩
          intro j other at_j
          exact Nat.succ_le_succ_iff.mp (least (j + 1) other at_j)

theorem brought_filter (subject : String) (round : Nat) (calls : List ResolveCall) :
    brought subject round (calls.filter (·.subject = subject)) = brought subject round calls := by
  induction calls with
  | nil => rfl
  | cons call rest ih =>
    rw [brought_cons, ← ih]
    by_cases own : call.subject = subject
    · rw [List.filter_cons_of_pos (by simpa using own), brought_cons]
    · rw [List.filter_cons_of_neg (by simpa using own), brought_one, if_neg (fun h => own h.1),
        Option.none_or]

end Brought

section Entry

variable {cache : SubjectCache} {calls : List ResolveCall} {subject : String} {id : UInt32}

def entryAfter (cache : SubjectCache) (calls : List ResolveCall) (subject : String) :
    Nat → Option UInt32
  | 0 => cache.get? subject
  | round + 1 => (entryAfter cache calls subject round).or (brought subject round calls)

theorem entryAfter_known (known : cache.get? subject = some id) (count : Nat) :
    entryAfter cache calls subject count = some id := by
  induction count with
  | zero => exact known
  | succ count ih => rw [entryAfter, ih, Option.some_or]

theorem entryAfter_none_iff (absent : cache.get? subject = none) (count : Nat) :
    entryAfter cache calls subject count = none ↔
      ∀ round < count, brought subject round calls = none := by
  induction count with
  | zero => simp [entryAfter, absent]
  | succ count ih =>
    rw [entryAfter, Option.or_eq_none_iff, ih]
    constructor
    · rintro ⟨before, last⟩ round below
      rcases Nat.lt_succ_iff_lt_or_eq.mp below with below | rfl
      · exact before round below
      · exact last
    · intro none
      exact ⟨fun round below => none round (Nat.lt_succ_of_lt below),
        none count (Nat.lt_succ_self count)⟩

theorem entryAfter_some_iff (absent : cache.get? subject = none) (count : Nat) :
    entryAfter cache calls subject count = some id ↔
      ∃ round < count, brought subject round calls = some id ∧
        ∀ earlier < round, brought subject earlier calls = none := by
  induction count with
  | zero => simp [entryAfter, absent]
  | succ count ih =>
    rw [entryAfter, Option.or_eq_some_iff, ih, entryAfter_none_iff absent]
    constructor
    · rintro (⟨round, below, brings, first⟩ | ⟨first, brings⟩)
      · exact ⟨round, Nat.lt_succ_of_lt below, brings, first⟩
      · exact ⟨count, Nat.lt_succ_self count, brings, first⟩
    · rintro ⟨round, below, brings, first⟩
      rcases Nat.lt_succ_iff_lt_or_eq.mp below with below | rfl
      · exact .inl ⟨round, below, brings, first⟩
      · exact .inr ⟨first, brings⟩

theorem round_lt {count round : Nat} (enough : ∀ call ∈ calls, call.delay < count)
    (brings : brought subject round calls = some id) : round < count := by
  obtain ⟨i, here, _⟩ := brought_some_iff.mp brings
  exact enough _ (List.mem_of_getElem? here)

theorem entryAfter_last_iff {count : Nat} (absent : cache.get? subject = none)
    (enough : ∀ call ∈ calls, call.delay < count) :
    entryAfter cache calls subject count = some id ↔
      ∃ round, brought subject round calls = some id ∧
        ∀ earlier < round, brought subject earlier calls = none := by
  rw [entryAfter_some_iff absent]
  constructor
  · rintro ⟨round, _, first⟩
    exact ⟨round, first⟩
  · rintro ⟨round, brings, first⟩
    exact ⟨round, round_lt enough brings, brings, first⟩

theorem entryAfter_filter {count enough : Nat} (within : ∀ call ∈ calls, call.delay < count)
    (alone : ∀ call ∈ calls.filter (·.subject = subject), call.delay < enough) :
    entryAfter cache (calls.filter (·.subject = subject)) subject enough =
      entryAfter cache calls subject count := by
  cases known : cache.get? subject with
  | some id => rw [entryAfter_known known, entryAfter_known known]
  | none =>
    apply Option.ext
    intro id
    rw [entryAfter_last_iff known alone, entryAfter_last_iff known within]
    simp only [brought_filter]

/-- One of the calls on the subject succeeds with `id`, and no other success on it has a lesser delay,
or the same delay and an earlier place in the list. -/
def Leads (calls : List ResolveCall) (subject : String) (id : UInt32) : Prop :=
  ∃ (i : Nat) (delay : Nat), calls[i]? = some ⟨subject, delay, .ok id⟩ ∧
    ∀ (j : Nat) later other, calls[j]? = some ⟨subject, later, .ok other⟩ →
      delay < later ∨ delay = later ∧ i ≤ j

theorem leads_iff :
    Leads calls subject id ↔ ∃ round, brought subject round calls = some id ∧
      ∀ earlier < round, brought subject earlier calls = none := by
  constructor
  · rintro ⟨i, delay, here, least⟩
    refine ⟨delay, brought_some_iff.mpr ⟨i, here, ?_⟩, ?_⟩
    · intro j other there
      rcases least j delay other there with less | ⟨_, before⟩
      · exact absurd less (Nat.lt_irrefl delay)
      · exact before
    · intro earlier less
      apply brought_none_iff.mpr
      intro other member
      obtain ⟨j, there⟩ := List.mem_iff_getElem?.mp member
      have := least j earlier other there
      omega
  · rintro ⟨round, brings, first⟩
    obtain ⟨i, here, least⟩ := brought_some_iff.mp brings
    refine ⟨i, round, here, ?_⟩
    intro j later other there
    rcases Nat.lt_trichotomy round later with less | rfl | more
    · exact .inl less
    · exact .inr ⟨rfl, least j other there⟩
    · exact absurd (List.mem_of_getElem? there) (brought_none_iff.mp (first later more) other)

end Entry

section Turns

variable {cache now : SubjectCache} {call : ResolveCall} {polled : Nat}
  {progress : Progress ResolveState Resolved} {calls : List ResolveCall}
  {race : List (Progress ResolveState Resolved)}

theorem turn_stands (stands : Stands call cache polled progress) :
    Stands call (Race.turn ResolveState.poll cache progress).1 (polled + 1)
      (Race.turn ResolveState.poll cache progress).2 := by
  cases progress with
  | pending state => exact stands.poll
  | finished resolved => exact stands.again

theorem turn_entry (stands : Stands call cache polled progress) (subject : String) :
    (Race.turn ResolveState.poll cache progress).1.get? subject =
      (cache.get? subject).or (brought subject polled [call]) := by
  have absorbed (known : ∃ id, cache.get? call.subject = some id) :
      cache.get? subject = (cache.get? subject).or (brought subject polled [call]) := by
    rw [brought_one]
    split
    · rename_i own
      obtain ⟨id, known⟩ := known
      rw [← own.1, known, Option.some_or]
    · rw [Option.or_none]
  cases progress with
  | finished resolved =>
    cases stands with
    | found known => exact absorbed ⟨_, known⟩
    | succeeded outcome known => exact absorbed ⟨_, known⟩
    | failed outcome => simp [Race.turn, brought_one, outcome, Except.toOption]
  | pending state =>
    obtain ⟨same, left⟩ := stands.pending
    rcases state.poll_cases cache with
      ⟨id, _, known, polls⟩ | ⟨_, delays, waits, polls⟩ | ⟨_, ends, polls⟩
    · rw [same] at known
      rw [Race.turn, polls]
      exact absorbed ⟨id, known⟩
    · have later : ¬ (call.subject = subject ∧ call.delay = polled) := by omega
      rw [Race.turn, polls, brought_one, if_neg later, Option.or_none]
    · have due : call.delay = polled := by omega
      rw [Race.turn, polls, SubjectCache.get?_settle, same, brought_one]
      simp only [due, and_true]

theorem grows_of_entries {after : SubjectCache} {more : String → Option UInt32}
    (entries : ∀ subject, after.get? subject = (cache.get? subject).or (more subject)) :
    cache.Grows after := by
  intro subject id known
  rw [entries, known, Option.some_or]

theorem round_stands (stands : List.Forall₂ (fun call progress => Stands call cache polled progress)
    calls race) :
    List.Forall₂ (fun call progress =>
      Stands call (Race.round ResolveState.poll cache race).1 (polled + 1) progress)
      calls (Race.round ResolveState.poll cache race).2 ∧
    ∀ subject, (Race.round ResolveState.poll cache race).1.get? subject =
      (cache.get? subject).or (brought subject polled calls) := by
  induction calls generalizing cache race with
  | nil =>
    cases stands
    exact ⟨.nil, fun subject => (Option.or_none).symm⟩
  | cons call rest ih =>
    cases stands with
    | @cons _ progress _ others here behind =>
      have entry := turn_entry here
      have moved := behind.imp fun call progress stands => stands.mono (grows_of_entries entry)
      obtain ⟨later, entries⟩ := ih moved
      rw [Race.round_cons]
      constructor
      · exact .cons ((turn_stands here).mono (grows_of_entries entries)) later
      · intro subject
        rw [entries, entry, Option.or_assoc, ← brought_cons]

theorem fresh_stands (cache : SubjectCache) (calls : List ResolveCall) :
    List.Forall₂ (fun call progress => Stands call cache 0 progress) calls
      ((calls.map .fresh).map .pending) := by
  induction calls with
  | nil => exact .nil
  | cons call rest ih => exact .cons .fresh ih

theorem rounds_stands (cache : SubjectCache) (calls : List ResolveCall) (count : Nat) :
    let ran := Race.rounds ResolveState.poll cache ((calls.map .fresh).map .pending) count
    List.Forall₂ (fun call progress => Stands call ran.1 count progress) calls ran.2 ∧
      ∀ subject, ran.1.get? subject = entryAfter cache calls subject count := by
  induction count with
  | zero => exact ⟨fresh_stands cache calls, fun subject => rfl⟩
  | succ count ih =>
    obtain ⟨stands, entries⟩ := ih
    obtain ⟨later, more⟩ := round_stands stands
    intro ran
    simp only [ran, Race.rounds_succ]
    refine ⟨later, ?_⟩
    intro subject
    rw [more, entries, entryAfter]

theorem turn_began (stands : Stands call cache (polled + 1) progress) :
    (Race.turn ResolveState.poll cache progress).2.began = progress.began := by
  cases progress with
  | finished resolved => rfl
  | pending state =>
    cases stands with
    | @waiting _ delays left =>
      cases delays with
      | zero => rfl
      | succ delays => rfl

theorem turn_fresh_began (cache : SubjectCache) (call : ResolveCall) :
    (Race.turn ResolveState.poll cache (.pending (.fresh call))).2.began =
      (cache.get? call.subject).isNone := by
  rcases (ResolveState.fresh call).poll_cases cache with
    ⟨id, _, known, polls⟩ | ⟨misses, delays, _, polls⟩ | ⟨misses, _, polls⟩
  · change cache.get? call.subject = some id at known
    rw [Race.turn, polls, known]
    rfl
  · rw [Race.turn, polls, misses call rfl]
    rfl
  · rw [Race.turn, polls, misses call rfl]
    rfl

theorem round_began (stands : List.Forall₂
    (fun call progress => Stands call cache (polled + 1) progress) calls race) :
    (Race.round ResolveState.poll cache race).2.map Progress.began = race.map Progress.began := by
  induction calls generalizing cache race with
  | nil =>
    cases stands
    rfl
  | cons call rest ih =>
    cases stands with
    | cons here behind =>
      have moved := behind.imp fun call progress stands =>
        stands.mono (grows_of_entries (turn_entry here))
      rw [Race.round_cons, List.map_cons, List.map_cons, turn_began here, ih moved]

/-- Which calls find their subject unknown: those whose subject the cache does not hold and no call
before them in the list brings at once. -/
def unknownTo (cache : SubjectCache) (before : List ResolveCall) (call : ResolveCall) : Bool :=
  ((cache.get? call.subject).or (brought call.subject 0 before)).isNone

def missed (cache : SubjectCache) : List ResolveCall → List ResolveCall → List Bool
  | _, [] => []
  | before, call :: rest => unknownTo cache before call :: missed cache (before ++ [call]) rest

theorem first_round_began (cache : SubjectCache) (before calls : List ResolveCall)
    (entries : ∀ subject, now.get? subject =
      (cache.get? subject).or (brought subject 0 before)) :
    (Race.round ResolveState.poll now ((calls.map .fresh).map .pending)).2.map Progress.began =
      missed cache before calls := by
  induction calls generalizing now before with
  | nil => rfl
  | cons call rest ih =>
    have entry := turn_entry (.fresh : Stands call now 0 (.pending (.fresh call)))
    have moved (subject : String) :
        (Race.turn ResolveState.poll now (.pending (.fresh call))).1.get? subject =
          (cache.get? subject).or (brought subject 0 (before ++ [call])) := by
      rw [entry, entries, brought_append, Option.or_assoc]
    rw [List.map_cons, List.map_cons, Race.round_cons, List.map_cons, turn_fresh_began,
      ih _ moved, entries, missed, unknownTo]

theorem rounds_began (cache : SubjectCache) (calls : List ResolveCall) (count : Nat) :
    (Race.rounds ResolveState.poll cache ((calls.map .fresh).map .pending)
      (count + 1)).2.map Progress.began = missed cache [] calls := by
  induction count with
  | zero => exact first_round_began cache [] calls fun subject => (Option.or_none).symm
  | succ count ih =>
    rw [Race.rounds_succ, round_began (rounds_stands cache calls (count + 1)).1, ih]

end Turns

section Results

variable {cache after : SubjectCache} {before calls : List ResolveCall} {call : ResolveCall}
  {resolved : Resolved} {results : List Resolved}

/-- What becomes of a call that stands behind `before` in the list. -/
structure Verdict (cache after : SubjectCache) (before : List ResolveCall) (call : ResolveCall)
    (resolved : Resolved) : Prop where
  ran : resolved.ran = unknownTo cache before call
  stands : ∃ polled, Stands call after polled (.finished resolved)

theorem Verdict.unique {later : SubjectCache} {ahead : List ResolveCall} {other : Resolved}
    (verdict : Verdict cache after before call resolved)
    (twin : Verdict cache later ahead call other)
    (entry : later.get? call.subject = after.get? call.subject)
    (first : brought call.subject 0 ahead = brought call.subject 0 before) : other = resolved := by
  have ran : other.ran = resolved.ran := by rw [verdict.ran, twin.ran, unknownTo, first, unknownTo]
  obtain ⟨polled, stands⟩ := verdict.stands
  obtain ⟨polled', stands'⟩ := twin.stands
  cases stands with
  | found known =>
    cases stands' with
    | found known' =>
      rw [entry, known] at known'
      cases known'
      rfl
    | succeeded => cases ran
    | failed => cases ran
  | succeeded outcome known =>
    cases stands' with
    | found => cases ran
    | succeeded outcome' known' =>
      rw [entry, known] at known'
      cases known'
      rfl
    | failed outcome' => cases outcome.symm.trans outcome'
  | failed outcome =>
    cases stands' with
    | found => cases ran
    | succeeded outcome' => cases outcome.symm.trans outcome'
    | failed outcome' =>
      cases outcome.symm.trans outcome'
      rfl

inductive Judged (cache after : SubjectCache) :
    List ResolveCall → List ResolveCall → List Resolved → Prop
  | nil {before : List ResolveCall} : Judged cache after before [] []
  | cons {before rest : List ResolveCall} {call : ResolveCall} {resolved : Resolved}
      {results : List Resolved} (here : Verdict cache after before call resolved)
      (others : Judged cache after (before ++ [call]) rest results) :
      Judged cache after before (call :: rest) (resolved :: results)

theorem Judged.length (judged : Judged cache after before calls results) :
    results.length = calls.length := by
  induction judged with
  | nil => rfl
  | cons here others ih => rw [List.length_cons, List.length_cons, ih]

theorem Judged.verdict (judged : Judged cache after before calls results) {i : Nat}
    (here : calls[i]? = some call) (result : results[i]? = some resolved) :
    Verdict cache after (before ++ calls.take i) call resolved := by
  induction judged generalizing i with
  | nil => cases here
  | @cons before rest head first results verdict others ih =>
    cases i with
    | zero =>
      cases here
      cases result
      rw [List.take_zero, List.append_nil]
      exact verdict
    | succ i =>
      have later := ih here result
      rw [List.append_assoc] at later
      exact later

theorem Judged.filter {subject : String} {later : SubjectCache} {ahead : List ResolveCall}
    {own : List Resolved} (judged : Judged cache after before calls results)
    (alone : Judged cache later ahead (calls.filter (·.subject = subject)) own)
    (entry : later.get? subject = after.get? subject)
    (first : brought subject 0 ahead = brought subject 0 before) :
    (calls.filter (·.subject = subject)).zip own =
      (calls.zip results).filter (·.1.subject = subject) := by
  induction judged generalizing ahead own with
  | nil =>
    cases alone
    rfl
  | @cons before rest call resolved results verdict others ih =>
    by_cases same : call.subject = subject
    · subst same
      rw [List.filter_cons_of_pos (by simp)] at alone ⊢
      cases alone with
      | cons twin alone =>
        have next := ih alone (by rw [brought_append, brought_append, first])
        rw [verdict.unique twin entry first, List.zip_cons_cons, List.zip_cons_cons,
          List.filter_cons_of_pos (by simp), next]
    · rw [List.filter_cons_of_neg (by simpa using same)] at alone ⊢
      have silent : brought subject 0 [call] = none := by
        rw [brought_one, if_neg fun own => same own.1]
      have next := ih alone (by rw [first, brought_append, silent, Option.or_none])
      rw [List.zip_cons_cons, List.filter_cons_of_neg (by simpa using same), next]

theorem finished_of_stands {count : Nat} {race : List (Progress ResolveState Resolved)}
    (enough : ∀ call ∈ calls, call.delay < count)
    (stands : List.Forall₂ (fun call progress => Stands call after count progress) calls race)
    (began : race.map Progress.began = missed cache before calls) :
    ∃ results, race = results.map .finished ∧ Judged cache after before calls results := by
  induction stands generalizing before with
  | nil => exact ⟨[], rfl, .nil⟩
  | @cons call progress rest race here others ih =>
    rw [List.map_cons, missed] at began
    obtain ⟨ran, began⟩ := List.cons.inj began
    obtain ⟨results, same, judged⟩ :=
      ih (fun call member => enough call (List.mem_cons_of_mem _ member)) began
    cases progress with
    | pending state =>
      have left := here.pending.2
      have due := enough call List.mem_cons_self
      omega
    | finished resolved =>
      exact ⟨resolved :: results, by rw [same, List.map_cons], .cons ⟨ran, ⟨count, here⟩⟩ judged⟩

def rounds (calls : List ResolveCall) : Nat := (calls.map (·.delay)).foldl max 0 + 1

theorem delay_lt_rounds (calls : List ResolveCall) :
    ∀ call ∈ calls, call.delay < rounds calls := by
  intro call member
  exact Nat.lt_succ_of_le ((Race.le_foldl_max _ 0).2 _ (List.mem_map_of_mem member))

theorem race_judged (cache : SubjectCache) (calls : List ResolveCall) :
    Judged cache (cache.race calls).1 [] calls (cache.race calls).2 ∧
      (∀ subject, (cache.race calls).1.get? subject =
        entryAfter cache calls subject (rounds calls)) ∧
      ∀ more, Race.run ResolveState.poll cache (calls.map .fresh) (rounds calls + more) =
        cache.race calls := by
  obtain ⟨stands, entries⟩ := rounds_stands cache calls (rounds calls)
  have began := rounds_began cache calls ((calls.map (·.delay)).foldl max 0)
  obtain ⟨results, same, judged⟩ := finished_of_stands (delay_lt_rounds calls) stands began
  have ended : Race.rounds ResolveState.poll cache ((calls.map .fresh).map .pending)
      (rounds calls) = ((Race.rounds ResolveState.poll cache
        ((calls.map .fresh).map .pending) (rounds calls)).1, results.map .finished) := by
    rw [← same]
  have lasts (more : Nat) :
      Race.run ResolveState.poll cache (calls.map .fresh) (rounds calls + more) =
        ((Race.rounds ResolveState.poll cache ((calls.map .fresh).map .pending)
          (rounds calls)).1, results) := by
    simp only [Race.run, Race.rounds_ended ResolveState.poll ended more]
    exact congrArg _ ((Race.results_finished results id).trans (List.map_id results))
  have ran : cache.race calls = _ := lasts 0
  rw [ran]
  exact ⟨judged, entries, lasts⟩

theorem unknownTo_iff {i : Nat} :
    unknownTo cache (calls.take i) call = true ↔ cache.get? call.subject = none ∧
      ∀ j < i, ∀ id, calls[j]? ≠ some ⟨call.subject, 0, .ok id⟩ := by
  rw [unknownTo, Option.isNone_iff_eq_none, Option.or_eq_none_iff, brought_none_iff]
  refine and_congr_right fun _ => ⟨?_, ?_⟩
  · intro none j before id there
    apply none id
    rw [List.mem_iff_getElem?]
    exact ⟨j, by rw [List.getElem?_take_of_lt before, there]⟩
  · intro none id member
    obtain ⟨j, there⟩ := List.mem_iff_getElem?.mp member
    rw [List.getElem?_take] at there
    split at there
    · rename_i before
      exact none j before id there
    · cases there

theorem Verdict.answer_error_iff (verdict : Verdict cache after before call resolved) (e : String) :
    resolved.answer = .error e ↔ resolved.ran = true ∧ call.outcome = .error e := by
  obtain ⟨polled, stands⟩ := verdict.stands
  obtain ⟨answer, ran⟩ := resolved
  constructor
  · rintro rfl
    exact stands.refused
  · rintro ⟨rfl, fails⟩
    exact stands.failing fails

theorem Verdict.answer_ok (verdict : Verdict cache after before call resolved) {id : UInt32}
    (answers : resolved.answer = .ok id) : after.get? call.subject = some id := by
  obtain ⟨polled, stands⟩ := verdict.stands
  obtain ⟨answer, ran⟩ := resolved
  cases answers
  exact stands.answered

theorem unsettled_iff {subject : String} (absent : cache.get? subject = none) :
    entryAfter cache calls subject (rounds calls) = none ↔
      ∀ call ∈ calls, call.subject = subject → ∃ e, call.outcome = .error e := by
  rw [entryAfter_none_iff absent]
  constructor
  · rintro none ⟨name, delay, outcome⟩ member rfl
    cases outcome with
    | error e => exact ⟨e, rfl⟩
    | ok id =>
      have due := delay_lt_rounds calls _ member
      exact absurd member (brought_none_iff.mp (none delay due) id)
  · intro fails round _
    apply brought_none_iff.mpr
    intro id member
    obtain ⟨e, failure⟩ := fails _ member rfl
    cases failure

end Results

/-- Whatever the cache and the calls that race on it, all calls end, and more rounds would change nothing.
A call runs its own resolution exactly where its subject is not held at the start and no earlier call in
the list succeeds on that subject without delay; it tells its own failure where it runs and fails, and else
the entry of its subject. An entry once there stays; where there is none, the success with the least delay
makes it, the first in the list among equals, and none is made where all calls on the subject fail. For
each subject, entry and results are those of the race without the calls on other subjects. -/
theorem race_settled_by_least_delay (cache : SubjectCache) (calls : List ResolveCall) :
    let after := (cache.race calls).1
    let results := (cache.race calls).2
    (results.length = calls.length ∧ ∀ more,
      Race.run ResolveState.poll cache (calls.map .fresh) (rounds calls + more) =
        (after, results)) ∧
    (∀ (i : Nat) call resolved, calls[i]? = some call → results[i]? = some resolved →
      (resolved.ran = true ↔ cache.get? call.subject = none ∧
        ∀ j < i, ∀ id, calls[j]? ≠ some ⟨call.subject, 0, .ok id⟩) ∧
      (∀ e, resolved.answer = .error e ↔ resolved.ran = true ∧ call.outcome = .error e) ∧
      ∀ id, resolved.answer = .ok id → after.get? call.subject = some id) ∧
    (∀ subject id, cache.get? subject = some id → after.get? subject = some id) ∧
    (∀ subject, cache.get? subject = none →
      (∀ id, after.get? subject = some id ↔ Leads calls subject id) ∧
      (after.get? subject = none ↔
        ∀ call ∈ calls, call.subject = subject → ∃ e, call.outcome = .error e)) ∧
    ∀ subject,
      let own := calls.filter (·.subject = subject)
      (cache.race own).1.get? subject = after.get? subject ∧
      own.zip (cache.race own).2 = (calls.zip results).filter (·.1.subject = subject) := by
  intro after results
  obtain ⟨judged, entries, lasts⟩ := race_judged cache calls
  refine ⟨⟨judged.length, lasts⟩, ?_, ?_, ?_, ?_⟩
  · intro i call resolved here result
    have verdict := judged.verdict here result
    rw [List.nil_append] at verdict
    refine ⟨?_, verdict.answer_error_iff, fun id answers => verdict.answer_ok answers⟩
    rw [verdict.ran, unknownTo_iff]
  · intro subject id known
    rw [entries, entryAfter_known known]
  · intro subject absent
    constructor
    · intro id
      rw [entries, entryAfter_last_iff absent (delay_lt_rounds calls), leads_iff]
    · rw [entries, unsettled_iff absent]
  · intro subject own
    obtain ⟨alone, ownEntries, _⟩ := race_judged cache own
    have entry : (cache.race own).1.get? subject = after.get? subject := by
      rw [ownEntries, entries, entryAfter_filter (delay_lt_rounds calls) (delay_lt_rounds own)]
    exact ⟨entry, judged.filter alone entry rfl⟩

/-- On "s" a slow success, a failure and the quicker success that wins; on "t" a success at once, which a
later call finds; "k" is known from the start. -/
def crowd : List ResolveCall :=
  [⟨"s", 2, .ok 7⟩, ⟨"t", 0, .ok 1⟩, ⟨"s", 1, .error "lost"⟩, ⟨"s", 1, .ok 9⟩,
    ⟨"t", 0, .error "unused"⟩, ⟨"k", 3, .ok 8⟩]

theorem race_settled_by_least_delay_mixed :
    let cache : SubjectCache := ⟨[("k", 5)]⟩
    let after := (cache.race crowd).1
    let own := crowd.filter (·.subject = "s")
    after.get? "s" = some 9 ∧ Leads crowd "s" 9 ∧ after.get? "k" = some 5 ∧
    (cache.race crowd).2.map (·.ran) = [true, true, true, true, false, false] ∧
    (∃ j < 4, ∃ id, crowd[j]? = some ⟨"t", 0, .ok id⟩) ∧
    (cache.race own).1.get? "s" = some 9 ∧ (cache.race own).2.length = 3 := by
  intro cache after own
  obtain ⟨_, verdicts, stays, settled, alone⟩ := race_settled_by_least_delay cache crowd
  have entry : after.get? "s" = some 9 := by decide
  have unheld : cache.get? "t" = none := rfl
  have second := (verdicts 4 ⟨"t", 0, .error "unused"⟩ ⟨.ok 1, false⟩ rfl rfl).1
  refine ⟨entry, ((settled "s" rfl).1 9).mp entry, stays "k" 5 rfl, rfl, ?_,
    (alone "s").1.trans entry, (race_settled_by_least_delay cache own).1.1⟩
  by_contra missing
  have ran := second.mpr ⟨unheld, fun j before id there => missing ⟨j, before, id, there⟩⟩
  cases ran

end FramedJson.CacheRace
