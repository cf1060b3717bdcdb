import FramedJson.Resolutions
import FramedJson.Proofs.Outcome
import FramedJson.Proofs.SubjectCache

/-!
What becomes of calls on one cache in whatever order they are polled. The first resolution of a subject
to succeed makes its entry; every call that succeeds answers with the entry, and a call whose own
resolution fails answers with that failure and leaves no trace in the cache.
-/
namespace FramedJson

namespace ResolveState

def call : ResolveState → ResolveCall
  | .fresh call => call
  | .waiting call _ => call

def left : ResolveState → Nat
  | .fresh call => call.delay
  | .waiting _ delays => delays

/-- The call goes on with its own resolution: it has begun that, or does not find its subject. -/
def Misses (cache : SubjectCache) (state : ResolveState) : Prop :=
  ∀ call, state = .fresh call → cache.get? call.subject = none

theorem poll_cases (cache : SubjectCache) (state : ResolveState) :
    (∃ id, state = .fresh state.call ∧ cache.get? state.call.subject = some id ∧
      state.poll cache = (cache, .finished ⟨.ok id, false⟩)) ∨
    (state.Misses cache ∧ ∃ delays, state.left = delays + 1 ∧
      state.poll cache = (cache, .pending (.waiting state.call delays))) ∨
    (state.Misses cache ∧ state.left = 0 ∧
      state.poll cache = ((cache.settle state.call.subject state.call.outcome).1,
        .finished ⟨(cache.settle state.call.subject state.call.outcome).2, true⟩)) := by
  cases state with
  | fresh call =>
    cases entry : cache.get? call.subject with
    | some id =>
      left
      exact ⟨id, rfl, entry, by simp [poll, entry]⟩
    | none =>
      right
      have misses : Misses cache (.fresh call) := by
        rintro other same
        cases same
        exact entry
      cases delay : call.delay with
      | zero =>
        right
        exact ⟨misses, delay, by simp [poll, entry, delay, await, ResolveState.call]⟩
      | succ delays =>
        left
        exact ⟨misses, delays, delay, by simp [poll, entry, delay, await, ResolveState.call]⟩
  | waiting call delays =>
    right
    have misses : Misses cache (.waiting call delays) := by
      rintro other same
      cases same
    cases delays with
    | zero =>
      right
      exact ⟨misses, rfl, rfl⟩
    | succ delays =>
      left
      exact ⟨misses, delays, rfl, rfl⟩

end ResolveState

namespace Resolutions

variable {ι : Type}

/-- Where a call may stand that has been polled `polled` times, the cache being as given. -/
inductive Stands (call : ResolveCall) (cache : SubjectCache) :
    Nat → Progress ResolveState Resolved → Prop
  | fresh : Stands call cache 0 (.pending (.fresh call))
  | waiting {polled delays : Nat} (left : delays + (polled + 1) = call.delay) :
    Stands call cache (polled + 1) (.pending (.waiting call delays))
  | found {polled : Nat} {id : UInt32} (known : cache.get? call.subject = some id) :
    Stands call cache (polled + 1) (.finished ⟨.ok id, false⟩)
  | succeeded {polled : Nat} {id own : UInt32} (outcome : call.outcome = .ok own)
    (known : cache.get? call.subject = some id) :
    Stands call cache (polled + 1) (.finished ⟨.ok id, true⟩)
  | failed {polled : Nat} {e : String} (outcome : call.outcome = .error e) :
    Stands call cache (polled + 1) (.finished ⟨.error e, true⟩)

section Stands

variable {call : ResolveCall} {cache later : SubjectCache} {polled : Nat}
  {progress : Progress ResolveState Resolved}

theorem Stands.mono (stands : Stands call cache polled progress) (grows : cache.Grows later) :
    Stands call later polled progress := by
  cases stands with
  | fresh => exact .fresh
  | waiting left => exact .waiting left
  | found known => exact .found (grows _ _ known)
  | succeeded outcome known => exact .succeeded outcome (grows _ _ known)
  | failed outcome => exact .failed outcome

theorem Stands.pending {state : ResolveState} (stands : Stands call cache polled (.pending state)) :
    state.call = call ∧ state.left + polled = call.delay := by
  cases stands with
  | fresh => exact ⟨rfl, rfl⟩
  | waiting left => exact ⟨rfl, left⟩

theorem Stands.again {resolved : Resolved} (stands : Stands call cache polled (.finished resolved)) :
    Stands call cache (polled + 1) (.finished resolved) := by
  cases stands with
  | found known => exact .found known
  | succeeded outcome known => exact .succeeded outcome known
  | failed outcome => exact .failed outcome

theorem Stands.answered {id : UInt32} {ran : Bool}
    (stands : Stands call cache polled (.finished ⟨.ok id, ran⟩)) :
    cache.get? call.subject = some id := by
  cases stands with
  | found known => exact known
  | succeeded outcome known => exact known

theorem Stands.refused {e : String} {ran : Bool}
    (stands : Stands call cache polled (.finished ⟨.error e, ran⟩)) :
    ran = true ∧ call.outcome = .error e := by
  cases stands with
  | failed outcome => exact ⟨rfl, outcome⟩

theorem Stands.failing {answer : Except String UInt32} {e : String}
    (stands : Stands call cache polled (.finished ⟨answer, true⟩))
    (fails : call.outcome = .error e) : answer = .error e := by
  cases stands with
  | succeeded outcome known => cases fails.symm.trans outcome
  | failed outcome =>
    cases fails.symm.trans outcome
    rfl

theorem Stands.settled (call : ResolveCall) (cache : SubjectCache) (polled : Nat) :
    Stands call (cache.settle call.subject call.outcome).1 (polled + 1)
      (.finished ⟨(cache.settle call.subject call.outcome).2, true⟩) := by
  cases outcome : call.outcome with
  | error e => exact .failed outcome
  | ok id =>
    cases result : cache.settle call.subject (.ok id : Except String UInt32) with
    | mk after answer =>
      obtain ⟨known, rfl, entry⟩ := SubjectCache.settle_ok result
      exact .succeeded outcome entry

theorem Stands.poll {state : ResolveState} (stands : Stands call cache polled (.pending state)) :
    Stands call (state.poll cache).1 (polled + 1) (state.poll cache).2 := by
  obtain ⟨own, left⟩ := stands.pending
  rcases state.poll_cases cache with
    ⟨id, _, known, polls⟩ | ⟨_, delays, waits, polls⟩ | ⟨_, _, polls⟩
  · rw [polls, own] at *
    exact .found known
  · rw [polls, own]
    apply Stands.waiting
    omega
  · rw [polls, own]
    exact Stands.settled call cache polled

end Stands

/-- The id of the first of the calls that is for the subject and whose own resolution succeeds. -/
def firstId (calls : ι → ResolveCall) (subject : String) (order : List ι) : Option UInt32 :=
  order.findSome? fun i =>
    if (calls i).subject = subject then (calls i).outcome.toOption else none

theorem firstId_snoc (calls : ι → ResolveCall) (subject : String) (order : List ι) (i : ι) :
    firstId calls subject (order ++ [i]) = (firstId calls subject order).or
      (if (calls i).subject = subject then (calls i).outcome.toOption else none) := by
  simp [firstId, List.findSome?_append]

theorem firstId_some {calls : ι → ResolveCall} {subject : String} {order : List ι} {id : UInt32}
    (first : firstId calls subject order = some id) :
    ∃ i ∈ order, (calls i).subject = subject ∧ (calls i).outcome = .ok id := by
  obtain ⟨i, member, here⟩ := List.exists_of_findSome?_eq_some first
  split at here
  · rename_i same
    exact ⟨i, member, same, Outcome.toOption_some here⟩
  · cases here

variable [DecidableEq ι]

section Place

variable (progress : ι → Progress ResolveState Resolved) {i j : ι}
  (after : Progress ResolveState Resolved)

@[simp] theorem place_same (i : ι) : place progress i after i = after := if_pos rfl

theorem place_other (differ : j ≠ i) : place progress i after j = progress j := if_neg differ

end Place

section Lists

structure Lists (test : Progress ResolveState Resolved → Bool)
    (progress : ι → Progress ResolveState Resolved) (list : List ι) : Prop where
  nodup : list.Nodup
  mem : ∀ i, i ∈ list ↔ test (progress i) = true

variable {test : Progress ResolveState Resolved → Bool}
  {progress : ι → Progress ResolveState Resolved} {list : List ι}

theorem Lists.note (lists : Lists test progress list) (i : ι)
    {after : Progress ResolveState Resolved}
    (keeps : test (progress i) = true → test after = true) :
    Lists test (place progress i after) (note list i (test (progress i)) (test after)) := by
  by_cases new : test (progress i) = false ∧ test after = true
  · have absent : i ∉ list := by
      intro member
      have passed := (lists.mem i).mp member
      rw [new.1] at passed
      cases passed
    rw [Resolutions.note, if_pos new]
    constructor
    · exact List.nodup_append.mpr ⟨lists.nodup, List.pairwise_singleton _ i, by
        rintro a here b there rfl
        rw [List.mem_singleton.mp there] at here
        exact absent here⟩
    · intro j
      by_cases self : j = i
      · subst self
        simp [new.2]
      · simp [self, place_other progress after self, lists.mem j]
  · rw [Resolutions.note, if_neg new]
    refine ⟨lists.nodup, ?_⟩
    intro j
    by_cases self : j = i
    · subst self
      rw [place_same, lists.mem j]
      refine ⟨keeps, fun passes => ?_⟩
      cases before : test (progress j) with
      | true => rfl
      | false => exact absurd ⟨before, passes⟩ new
    · rw [place_other progress after self]
      exact lists.mem j

omit [DecidableEq ι] in
theorem note_extends (list : List ι) (i : ι) (before after : Bool) :
    list <+: note list i before after := by
  unfold note
  split
  · exact List.prefix_append list [i]
  · exact List.prefix_refl list

end Lists

section Steps

variable {now : Resolutions ι} {i : ι}

theorem poll_finished {resolved : Resolved} (finished : now.progress i = .finished resolved) :
    now.poll i = now := by
  simp only [poll, finished]

theorem poll_pending {state : ResolveState} (pending : now.progress i = .pending state) :
    now.poll i =
      { cache := (state.poll now.cache).1
        progress := place now.progress i (state.poll now.cache).2
        began := note now.began i (now.progress i).began (state.poll now.cache).2.began
        completed := note now.completed i (now.progress i).completed
          (state.poll now.cache).2.completed } := by
  simp only [poll, pending]

theorem poll_grows (now : Resolutions ι) (i : ι) : now.cache.Grows (now.poll i).cache := by
  cases stands : now.progress i with
  | finished resolved =>
    rw [poll_finished stands]
    exact SubjectCache.Grows.refl _
  | pending state =>
    rw [poll_pending stands]
    rcases state.poll_cases now.cache with
      ⟨_, _, _, polls⟩ | ⟨_, _, _, polls⟩ | ⟨_, _, polls⟩
    · rw [polls]
      exact SubjectCache.Grows.refl _
    · rw [polls]
      exact SubjectCache.Grows.refl _
    · rw [polls]
      exact SubjectCache.settle_grows _ _ _

theorem poll_records (now : Resolutions ι) (i : ι) :
    now.began <+: (now.poll i).began ∧ now.completed <+: (now.poll i).completed := by
  cases stands : now.progress i with
  | finished resolved =>
    rw [poll_finished stands]
    exact ⟨List.prefix_refl _, List.prefix_refl _⟩
  | pending state =>
    rw [poll_pending stands]
    exact ⟨note_extends _ _ _ _, note_extends _ _ _ _⟩

theorem poll_keeps_finished {j : ι} {resolved : Resolved} (i : ι)
    (finished : now.progress j = .finished resolved) :
    (now.poll i).progress j = .finished resolved := by
  cases stands : now.progress i with
  | finished other =>
    rw [poll_finished stands]
    exact finished
  | pending state =>
    have differ : j ≠ i := by
      rintro rfl
      cases finished.symm.trans stands
    rw [poll_pending stands]
    exact (place_other _ _ differ).trans finished

end Steps

/-- What holds of the calls after the polls, whatever they were. -/
structure Sound (calls : ι → ResolveCall) (polls : List ι) (now : Resolutions ι) : Prop where
  stands : ∀ i, Stands (calls i) now.cache (polls.count i) (now.progress i)
  began : Lists Progress.began now.progress now.began
  completed : Lists Progress.completed now.progress now.completed
  entries : ∀ subject, now.cache.get? subject = firstId calls subject now.completed
  namesDiffer : now.cache.NamesDiffer

section Sound

variable {calls : ι → ResolveCall} {polls : List ι} {now : Resolutions ι}

theorem sound_opened (calls : ι → ResolveCall) : Sound calls [] (opened calls) where
  stands := fun _ => .fresh
  began := ⟨List.nodup_nil, fun _ => by simp [opened, Progress.began]⟩
  completed := ⟨List.nodup_nil, fun _ => by simp [opened, Progress.completed]⟩
  entries := fun _ => rfl
  namesDiffer := List.nodup_nil

theorem Sound.stands_after (sound : Sound calls polls now) (i : ι) :
    ∀ j, Stands (calls j) (now.poll i).cache ((polls ++ [i]).count j) ((now.poll i).progress j) := by
  intro j
  have before := sound.stands j
  by_cases self : j = i
  · subst self
    rw [List.count_append, List.count_singleton_self]
    cases progress : now.progress j with
    | finished resolved =>
      rw [progress] at before
      rw [poll_finished progress, progress]
      exact before.again
    | pending state =>
      rw [progress] at before
      rw [poll_pending progress]
      dsimp only
      rw [place_same]
      exact before.poll
  · have count : (polls ++ [i]).count j = polls.count j := by
      simp [List.count_append, Ne.symm self]
    rw [count]
    have kept : (now.poll i).progress j = now.progress j := by
      cases progress : now.progress i with
      | finished resolved => rw [poll_finished progress]
      | pending state =>
        rw [poll_pending progress]
        exact place_other _ _ self
    rw [kept]
    exact before.mono (poll_grows now i)

theorem Sound.poll (sound : Sound calls polls now) (i : ι) :
    Sound calls (polls ++ [i]) (now.poll i) := by
  have stands := sound.stands_after i
  cases progress : now.progress i with
  | finished resolved =>
    rw [poll_finished progress] at stands ⊢
    exact ⟨stands, sound.began, sound.completed, sound.entries, sound.namesDiffer⟩
  | pending state =>
    have own : state.call = calls i := by
      have here := sound.stands i
      rw [progress] at here
      exact here.pending.1
    rw [poll_pending progress] at stands ⊢
    -- A call that has begun its resolution goes on with it, and only one that ends it writes.
    rcases state.poll_cases now.cache with
      ⟨id, fresh, known, polls⟩ | ⟨_, delays, _, polls⟩ | ⟨_, _, polls⟩
    · rw [polls] at stands ⊢
      refine ⟨stands, sound.began.note i ?_, sound.completed.note i ?_, ?_, sound.namesDiffer⟩
      · rw [progress, fresh]
        simp [Progress.began]
      · rw [progress]
        simp [Progress.completed]
      · simpa [Resolutions.note, Progress.completed] using sound.entries
    · rw [polls] at stands ⊢
      refine ⟨stands, sound.began.note i ?_, sound.completed.note i ?_, ?_, sound.namesDiffer⟩
      · simp [Progress.began]
      · rw [progress]
        simp [Progress.completed]
      · simpa [Resolutions.note, Progress.completed] using sound.entries
    · rw [polls, own] at stands ⊢
      refine ⟨stands, sound.began.note i ?_, sound.completed.note i ?_, ?_,
        SubjectCache.settle_namesDiffer sound.namesDiffer _ _⟩
      · simp [Progress.began]
      · simp [Progress.completed]
      · intro subject
        have noted : Resolutions.note now.completed i (now.progress i).completed true =
            now.completed ++ [i] := by
          simp [Resolutions.note, progress, Progress.completed]
        change _ = firstId calls subject
          (Resolutions.note now.completed i (now.progress i).completed true)
        rw [noted, firstId_snoc, ← sound.entries]
        exact SubjectCache.get?_settle _ _ _ _

theorem Sound.run (sound : Sound calls polls now) (more : List ι) :
    Sound calls (polls ++ more) (now.run more) := by
  induction more generalizing polls now with
  | nil =>
    rw [List.append_nil]
    exact sound
  | cons i rest ih =>
    rw [List.append_cons]
    exact ih (sound.poll i)

theorem sound_run (calls : ι → ResolveCall) (polls : List ι) :
    Sound calls polls ((opened calls).run polls) :=
  (sound_opened calls).run polls

end Sound

section Runs

variable (calls : ι → ResolveCall)

theorem run_append (now : Resolutions ι) (past future : List ι) :
    now.run (past ++ future) = (now.run past).run future :=
  List.foldl_append

theorem run_keeps {P : Resolutions ι → Prop} (kept : ∀ now i, P now → P (now.poll i))
    {now : Resolutions ι} (holds : P now) (polls : List ι) : P (now.run polls) :=
  List.foldlRecOn polls _ holds fun now holds i _ => kept now i holds

theorem run_grows (now : Resolutions ι) (polls : List ι) :
    now.cache.Grows (now.run polls).cache :=
  run_keeps (P := fun later => now.cache.Grows later.cache)
    (fun later i grows => grows.trans (poll_grows later i)) (SubjectCache.Grows.refl _) polls

theorem run_records (now : Resolutions ι) (polls : List ι) :
    now.began <+: (now.run polls).began ∧ now.completed <+: (now.run polls).completed :=
  run_keeps (P := fun later => now.began <+: later.began ∧ now.completed <+: later.completed)
    (fun later i records => ⟨records.1.trans (poll_records later i).1,
      records.2.trans (poll_records later i).2⟩)
    ⟨List.prefix_refl _, List.prefix_refl _⟩ polls

theorem run_keeps_finished {now : Resolutions ι} {i : ι} {resolved : Resolved}
    (finished : now.progress i = .finished resolved) (polls : List ι) :
    (now.run polls).progress i = .finished resolved :=
  run_keeps (P := fun later => later.progress i = .finished resolved)
    (fun _ j => poll_keeps_finished j) finished polls

theorem unpolled_fresh {polls : List ι} {i : ι} (unpolled : i ∉ polls) :
    ((opened calls).run polls).progress i = .pending (.fresh (calls i)) := by
  have stands := (sound_run calls polls).stands i
  rw [List.count_eq_zero.mpr unpolled] at stands
  generalize ((opened calls).run polls).progress i = progress at stands
  cases stands with
  | fresh => rfl

theorem poll_first_known {polls : List ι} {i : ι} (first : i ∉ polls) {id : UInt32}
    (known : ((opened calls).run polls).cache.get? (calls i).subject = some id) :
    (((opened calls).run polls).poll i).progress i = .finished ⟨.ok id, false⟩ := by
  rw [poll_pending (unpolled_fresh calls first)]
  simp [ResolveState.poll, known]

theorem poll_first_unknown {polls : List ι} {i : ι} (first : i ∉ polls)
    (unknown : ((opened calls).run polls).cache.get? (calls i).subject = none) :
    ((((opened calls).run polls).poll i).progress i).began = true := by
  rw [poll_pending (unpolled_fresh calls first)]
  rcases (ResolveState.fresh (calls i)).poll_cases ((opened calls).run polls).cache with
    ⟨id, _, known, _⟩ | ⟨_, delays, _, polls⟩ | ⟨_, _, polls⟩
  · cases known.symm.trans unknown
  · simp [polls, Progress.began]
  · simp [polls, Progress.began]

theorem began_iff (polls : List ι) (i : ι) :
    i ∈ ((opened calls).run polls).began ↔ ∃ before after, polls = before ++ i :: after ∧
      i ∉ before ∧ ((opened calls).run before).cache.get? (calls i).subject = none := by
  constructor
  · intro member
    have began := ((sound_run calls polls).began.mem i).mp member
    have polled : i ∈ polls := by
      apply Decidable.byContradiction
      intro unpolled
      rw [unpolled_fresh calls unpolled] at began
      cases began
    obtain ⟨before, after, rfl, first⟩ := List.eq_append_cons_of_mem polled
    refine ⟨before, after, rfl, first, ?_⟩
    cases entry : ((opened calls).run before).cache.get? (calls i).subject with
    | none => rfl
    | some id =>
      have finished := run_keeps_finished (poll_first_known calls first entry) after
      rw [run_append] at began
      change ((((((opened calls).run before).poll i).run after).progress i).began = true) at began
      rw [finished] at began
      cases began
  · rintro ⟨before, after, rfl, first, unknown⟩
    have began := poll_first_unknown calls first unknown
    have member := (((sound_run calls before).poll i).began.mem i).mpr began
    rw [run_append]
    exact (run_records (((opened calls).run before).poll i) after).1.subset member

theorem completed_iff (polls : List ι) (i : ι) :
    i ∈ ((opened calls).run polls).completed ↔
      ∃ answer, ((opened calls).run polls).progress i = .finished ⟨answer, true⟩ := by
  rw [(sound_run calls polls).completed.mem]
  cases ((opened calls).run polls).progress i with
  | pending state => simp [Progress.completed]
  | finished resolved =>
    obtain ⟨answer, ran⟩ := resolved
    simp [Progress.completed]

theorem known_iff (polls : List ι) (subject : String) :
    (∃ id, ((opened calls).run polls).cache.get? subject = some id) ↔
      ∃ i id ran, (calls i).subject = subject ∧
        ((opened calls).run polls).progress i = .finished ⟨.ok id, ran⟩ := by
  have sound := sound_run calls polls
  constructor
  · rintro ⟨id, known⟩
    rw [sound.entries] at known
    obtain ⟨i, member, same, own⟩ := firstId_some known
    obtain ⟨answer, finished⟩ := (completed_iff calls polls i).mp member
    cases answer with
    | ok other => exact ⟨i, other, true, same, finished⟩
    | error e =>
      have stands := sound.stands i
      rw [finished] at stands
      cases own.symm.trans stands.refused.2
  · rintro ⟨i, id, ran, rfl, finished⟩
    have stands := sound.stands i
    rw [finished] at stands
    exact ⟨id, stands.answered⟩

theorem poll_failing (polls : List ι) {i : ι} {e : String} (fails : (calls i).outcome = .error e) :
    (((opened calls).run polls).poll i).cache = ((opened calls).run polls).cache := by
  cases progress : ((opened calls).run polls).progress i with
  | finished resolved => rw [poll_finished progress]
  | pending state =>
    have stands := (sound_run calls polls).stands i
    rw [progress] at stands
    rw [poll_pending progress]
    rcases state.poll_cases ((opened calls).run polls).cache with
      ⟨_, _, _, polls⟩ | ⟨_, _, _, polls⟩ | ⟨_, _, polls⟩
    · rw [polls]
    · rw [polls]
    · rw [polls, stands.pending.1, fails]
      rfl

theorem completed_failing (polls : List ι) {i : ι} {e : String}
    (fails : (calls i).outcome = .error e) (completed : i ∈ ((opened calls).run polls).completed) :
    ((opened calls).run polls).progress i = .finished ⟨.error e, true⟩ := by
  obtain ⟨answer, finished⟩ := (completed_iff calls polls i).mp completed
  have stands := (sound_run calls polls).stands i
  rw [finished] at stands
  rw [finished, stands.failing fails]

theorem polled_finished (polls : List ι) {i : ι} (enough : (calls i).delay < polls.count i) :
    ∃ resolved, ((opened calls).run polls).progress i = .finished resolved := by
  have stands := (sound_run calls polls).stands i
  cases progress : ((opened calls).run polls).progress i with
  | finished resolved => exact ⟨resolved, rfl⟩
  | pending state =>
    rw [progress] at stands
    have left := stands.pending.2
    omega

end Runs

/-- Whatever the calls on one cache are, and in whatever order they are polled: an entry stays, and it
holds the id of the first resolution of its subject that succeeded. Every call that succeeds answers with
it. A call whose own resolution fails writes nothing and ends with that failure, and no other call fails.
A resolution is begun once at most, and exactly where the subject is not known when its call is first
polled. The cache holds as many subjects as there are for which a call has succeeded, and every call ends
that is polled often enough. -/
theorem first_success_wins (calls : ι → ResolveCall) (polls more : List ι) :
    let now := (opened calls).run polls
    let later := now.run more
    (now.cache.Grows later.cache ∧
      ∀ subject, now.cache.get? subject = firstId calls subject now.completed) ∧
    (now.completed.Nodup ∧ now.completed <+: later.completed ∧
      ∀ i, i ∈ now.completed ↔ ∃ answer, now.progress i = .finished ⟨answer, true⟩) ∧
    (∀ i id ran, now.progress i = .finished ⟨.ok id, ran⟩ →
      now.cache.get? (calls i).subject = some id) ∧
    (∀ i e, (calls i).outcome = .error e → (now.poll i).cache = now.cache ∧
      (i ∈ now.completed → now.progress i = .finished ⟨.error e, true⟩)) ∧
    (∀ i e ran, now.progress i = .finished ⟨.error e, ran⟩ →
      ran = true ∧ (calls i).outcome = .error e) ∧
    (now.began.Nodup ∧ ∀ i, i ∈ now.began ↔ ∃ before after, polls = before ++ i :: after ∧
      i ∉ before ∧ ((opened calls).run before).cache.get? (calls i).subject = none) ∧
    (∃ subjects : List String, subjects.Nodup ∧ now.cache.size = subjects.length ∧
      ∀ subject, subject ∈ subjects ↔ ∃ i id ran, (calls i).subject = subject ∧
        now.progress i = .finished ⟨.ok id, ran⟩) ∧
    ∀ i, (calls i).delay < polls.count i → ∃ resolved, now.progress i = .finished resolved := by
  intro now later
  have sound : Sound calls polls now := sound_run calls polls
  refine ⟨⟨run_grows now more, sound.entries⟩,
    ⟨sound.completed.nodup, (run_records now more).2, completed_iff calls polls⟩, ?_, ?_, ?_,
    ⟨sound.began.nodup, began_iff calls polls⟩, ?_, fun i => polled_finished calls polls⟩
  · intro i id ran finished
    have stands := sound.stands i
    rw [finished] at stands
    exact stands.answered
  · intro i e fails
    exact ⟨poll_failing calls polls fails, completed_failing calls polls fails⟩
  · intro i e ran finished
    have stands := sound.stands i
    rw [finished] at stands
    exact stands.refused
  · refine ⟨now.cache.ids.map Prod.fst, sound.namesDiffer, (List.length_map _).symm, ?_⟩
    intro subject
    rw [SubjectCache.mem_names_iff]
    exact known_iff calls polls subject

/-- Two slow resolutions of one subject and one that fails late; the last call comes when the subject is
known. -/
def overlapping : Nat → ResolveCall
  | 0 => ⟨"s", 2, .ok 7⟩
  | 1 => ⟨"s", 1, .ok 9⟩
  | 2 => ⟨"s", 1, .error "lost"⟩
  | _ => ⟨"s", 0, .error "unused"⟩

theorem first_success_wins_overlapping :
    let now := (opened overlapping).run [0, 1, 2, 0, 1, 2, 0, 3]
    now.cache.get? "s" = some 9 ∧ now.completed = [1, 2, 0] ∧ now.began = [0, 1, 2] ∧
    now.progress 0 = .finished ⟨.ok 9, true⟩ ∧
    now.progress 2 = .finished ⟨.error "lost", true⟩ ∧
    now.progress 3 = .finished ⟨.ok 9, false⟩ := by
  obtain ⟨⟨_, entries⟩, _, _, failing, _⟩ :=
    first_success_wins overlapping [0, 1, 2, 0, 1, 2, 0, 3] []
  refine ⟨?_, rfl, rfl, rfl, ?_, rfl⟩
  · rw [entries]
    rfl
  · exact (failing 2 "lost" rfl).2 (by decide)

end Resolutions
end FramedJson
