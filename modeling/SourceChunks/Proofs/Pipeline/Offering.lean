import SourceChunks.Pipeline.Run
import SourceChunks.Proofs.Scan.Remaining
import Mathlib.Data.Nat.Find

/-!
# What a pipeline offers to its sink

A run pulls and offers in turn, and a sink may do anything to the files in between.  An `Exchange`
is what there is between two pulls, and `Exchange.after` what there would be after any number of
them if the pipeline never gave up.  A run follows this sequence as long as chunks are taken
(`offer_after`) and leaves it in one of three ways: at the end of the stream, at a broken pipe, or
at another refusal.  `Pipeline.Serves` says what it answers in each of them.

`Pipeline.run_serves` adds that nothing else can go wrong, for settings are checked before there is
a pipeline at all, and that a sink which leaves the files alone is offered the chunks of the eager
reading.
-/

namespace SourceChunks

/-- Offers chunks one after the other, whatever the answers. -/
def Sink.offerAll {σ : Type} (sink : Sink σ) (state : σ) (cs : List Chunk) : σ :=
  cs.foldl (fun s c => (sink.write s c).2) state

/-- **A pipeline between two pulls**: its stream, and the state of its sink. -/
structure Exchange (σ : Type) where
  stream : ChunkStream
  state : σ

namespace Exchange

variable {σ : Type} (sink : Sink σ) (x : Exchange σ)

/-- The next pull, from the files as the sink has left them. -/
def pull : ChunkStream.Pull := x.stream.next (sink.files x.state)

/-- The chunk that is offered next, if there is one. -/
def chunk? : Option Chunk := (x.pull sink).chunk?

/-- Why the chunk that is offered next is refused, if it is. -/
def refusal? : Option WriteError := (x.chunk? sink).bind fun c => (sink.write x.state c).1

/-- One pull, with its chunk offered to the sink. -/
def step : Exchange σ := ⟨(x.pull sink).stream, sink.offerAll x.state (x.chunk? sink).toList⟩

/-- **After `k` pulls**, with every chunk offered to the sink, whatever it answers. -/
def after : Nat → Exchange σ → Exchange σ
  | 0, x => x
  | k + 1, x => after k (x.step sink)

/-- **The chunks that `k` pulls give.** -/
def offered : Nat → Exchange σ → List Chunk
  | 0, _ => []
  | k + 1, x => (x.chunk? sink).toList ++ offered k (x.step sink)

/-- The stream has exactly `n` chunks. -/
def HasChunks (n : Nat) : Prop := ∀ k, ((x.after sink k).chunk? sink).isSome ↔ k < n

/-- **What the pulls give, in order**, up to the end of the stream. -/
def Gives (cs : List Chunk) : Prop := ∀ k, cs[k]? = (x.after sink k).chunk? sink

/-- Is there a chunk, and does the sink take it? -/
def IsTaken : Prop := (x.chunk? sink).isSome ∧ x.refusal? sink = none

/-- **The first refusal** comes after `k` chunks that were taken. -/
structure FirstRefusal (k : Nat) (e : WriteError) : Prop where
  before : ∀ i < k, (x.after sink i).refusal? sink = none
  refused : (x.after sink k).refusal? sink = some e

variable {sink x}

theorem after_succ (k : Nat) : x.after sink (k + 1) = (x.after sink k).step sink := by
  induction k generalizing x with
  | zero => rfl
  | succ k ih =>
    rw [after, ih]
    rfl

/-- The sink has been offered the chunks that were pulled, in order, and nothing else. -/
theorem state_after (k : Nat) :
    (x.after sink k).state = sink.offerAll x.state (x.offered sink k) := by
  induction k generalizing x with
  | zero => rfl
  | succ k ih =>
    rw [after, ih, offered, Sink.offerAll, Sink.offerAll, List.foldl_append]
    rfl

/-! ### The end of the stream -/

theorem chunk?_after_of_eq_none (h : x.chunk? sink = none) (k : Nat) :
    (x.after sink k).chunk? sink = none := by
  induction k generalizing x with
  | zero => exact h
  | succ k ih => exact ih (ChunkStream.next_next_of_eq_none h _)

/-- **A stream comes to its end**, whatever the sink does to the files. -/
theorem exists_hasChunks (sink : Sink σ) (x : Exchange σ) : ∃ n, x.HasChunks sink n := by
  match h : x.stream.next (sink.files x.state) with
  | ⟨none, rest, log⟩ =>
    have hnone : x.chunk? sink = none := by rw [chunk?, pull, h]
    refine ⟨0, fun k => ?_⟩
    rw [chunk?_after_of_eq_none hnone]
    simp
  | ⟨some c, rest, log⟩ =>
    have hsome : x.chunk? sink = some c := by rw [chunk?, pull, h]
    have hstream : (x.step sink).stream = rest := by rw [step, pull, h]
    have hlt : Prod.Lex (· < ·) (· < ·)
        ((x.step sink).stream.paths.length, (x.step sink).stream.pending.length)
        (x.stream.paths.length, x.stream.pending.length) := by
      rw [hstream]
      exact ChunkStream.next_remaining_lt h
    obtain ⟨n, hn⟩ := exists_hasChunks sink (x.step sink)
    refine ⟨n + 1, fun k => ?_⟩
    cases k with
    | zero =>
      show (x.chunk? sink).isSome ↔ _
      rw [hsome]
      simp
    | succ k => rw [after, hn, Nat.add_lt_add_iff_right]
termination_by (x.stream.paths.length, x.stream.pending.length)
decreasing_by exact hlt

/-- The stream counts the chunks that were pulled. -/
theorem chunks_after (k : Nat) : (x.after sink k).stream.stats.chunks
    = x.stream.stats.chunks + (x.offered sink k).length := by
  induction k generalizing x with
  | zero => rfl
  | succ k ih =>
    rw [after, ih, offered, List.length_append, ← Nat.add_assoc]
    congr 1
    exact ChunkStream.chunks_next _ _

/-- After a pull there is one chunk less. -/
theorem HasChunks.step {n : Nat} (h : x.HasChunks sink (n + 1)) :
    (x.step sink).HasChunks sink n := by
  intro k
  have hk := h (k + 1)
  rwa [after, Nat.add_lt_add_iff_right] at hk

theorem HasChunks.chunk?_after {n : Nat} (h : x.HasChunks sink n) :
    (x.after sink n).chunk? sink = none := by
  rw [← Option.not_isSome_iff_eq_none, h]
  exact Nat.lt_irrefl n

/-- As long as there are chunks, each pull gives one. -/
theorem length_offered {n k : Nat} (h : x.HasChunks sink n) (hk : k ≤ n) :
    (x.offered sink k).length = k := by
  induction k generalizing x n with
  | zero => rfl
  | succ k ih =>
    obtain ⟨m, rfl⟩ : ∃ m, n = m + 1 := ⟨n - 1, by omega⟩
    obtain ⟨c, hc⟩ := Option.isSome_iff_exists.mp ((h 0).mpr (Nat.succ_pos m))
    rw [after] at hc
    rw [offered, List.length_append, ih h.step (by omega), hc, Option.toList_some,
      List.length_singleton, Nat.add_comm]

/-- What is offered until the stream comes to its end is what the pulls give.  By induction on the
number of chunks. -/
theorem HasChunks.gives {n : Nat} (h : x.HasChunks sink n) : x.Gives sink (x.offered sink n) := by
  intro k
  induction n generalizing x k with
  | zero => exact (chunk?_after_of_eq_none h.chunk?_after k).symm
  | succ n ih =>
    obtain ⟨c, hc⟩ := Option.isSome_iff_exists.mp ((h 0).mpr (Nat.succ_pos n))
    rw [after] at hc
    rw [offered, hc, Option.toList_some, List.singleton_append]
    cases k with
    | zero => exact hc.symm
    | succ k => exact ih h.step k

theorem Gives.eq {cs cs' : List Chunk} (h : x.Gives sink cs) (h' : x.Gives sink cs') : cs = cs' :=
  List.ext_getElem? fun k => (h k).trans (h' k).symm

/-! ### Which chunks are offered -/

variable (sink x) in
/-- Do the paths that the next pull looks at give what `g` says? -/
def Finds (g : Path → List Chunk) : Prop :=
  ∀ p ∈ x.stream.looked (sink.files x.state),
    (FileReport.ofPath (sink.files x.state) x.stream.scope p).chunks = g p

theorem scope_after (k : Nat) : (x.after sink k).stream.scope = x.stream.scope := by
  induction k generalizing x with
  | zero => rfl
  | succ k ih => rw [after, ih, step, pull, ChunkStream.scope_next]

/-- **Pulls that find what `g` says offer the chunks that remain according to `g`**, in order.  The
files may change meanwhile. -/
theorem offered_eq_take {g : Path → List Chunk} (h : ∀ k, (x.after sink k).Finds sink g) (k : Nat) :
    x.offered sink k = (x.stream.remaining g).take k := by
  induction k generalizing x with
  | zero => rw [offered, List.take_zero]
  | succ k ih =>
    obtain ⟨hhead, htail⟩ := ChunkStream.next_remaining (h 0)
    have hthen : ∀ i, ((x.step sink).after sink i).Finds sink g := fun i => h (i + 1)
    have hchunk : x.chunk? sink = (x.stream.remaining g).head? := hhead
    have hrest : (x.step sink).stream.remaining g = (x.stream.remaining g).tail := htail
    rw [offered, ih hthen, hchunk, hrest]
    cases x.stream.remaining g with
    | nil => rw [List.tail_nil, List.take_nil, List.take_nil]; rfl
    | cons c cs => rfl

/-- All of them have been offered when the stream comes to its end. -/
theorem offered_eq_remaining {g : Path → List Chunk} (h : ∀ k, (x.after sink k).Finds sink g)
    {n : Nat} (hn : x.HasChunks sink n) : x.offered sink n = x.stream.remaining g := by
  have hlength := length_offered hn (Nat.le_refl n)
  -- one more pull offers nothing
  have hmore : x.offered sink (n + 1) = x.offered sink n := by
    clear hlength
    induction n generalizing x with
    | zero =>
      have hend : x.chunk? sink = none := hn.chunk?_after
      rw [offered, offered, offered, hend]
      rfl
    | succ n ih =>
      have hthen := ih (fun k => h (k + 1)) hn.step
      rw [offered, hthen]
      rfl
  rw [offered_eq_take h] at hlength hmore ⊢
  rw [offered_eq_take h] at hmore
  rw [List.length_take] at hlength
  have hcount := congrArg List.length hmore
  rw [List.length_take, List.length_take] at hcount
  exact List.take_of_length_le (by omega)

theorem Gives.eq_remaining {cs : List Chunk} (hgives : x.Gives sink cs) {g : Path → List Chunk}
    (h : ∀ k, (x.after sink k).Finds sink g) : cs = x.stream.remaining g := by
  obtain ⟨n, hn⟩ := x.exists_hasChunks sink
  rw [hgives.eq hn.gives, offered_eq_remaining h hn]

/-! ### Which paths are looked at -/

theorem paths_after (k : Nat) : (x.after sink k).stream.paths ⊆ x.stream.paths := by
  induction k generalizing x with
  | zero => exact List.Subset.refl _
  | succ k ih =>
    refine List.Subset.trans ih ?_
    rw [← ChunkStream.looked_append (sink.files x.state) x.stream]
    exact List.subset_append_right _ _

theorem mem_paths_of_looked {k : Nat} {p : Path}
    (hp : p ∈ (x.after sink k).stream.looked (sink.files (x.after sink k).state)) :
    p ∈ x.stream.paths := by
  apply paths_after k
  rw [← ChunkStream.looked_append (sink.files (x.after sink k).state)]
  exact List.mem_append_left _ hp

/-- **Every path is looked at** before the stream comes to its end. -/
theorem exists_looked {p : Path} (hp : p ∈ x.stream.paths) :
    ∃ k, p ∈ (x.after sink k).stream.looked (sink.files (x.after sink k).state) := by
  obtain ⟨n, hn⟩ := x.exists_hasChunks sink
  induction n generalizing x with
  | zero =>
    have hall := ChunkStream.looked_append (sink.files x.state) x.stream
    have hend : x.chunk? sink = none := hn.chunk?_after
    rw [ChunkStream.paths_eq_nil_of_eq_none hend, List.append_nil] at hall
    exact ⟨0, by rw [after, hall]; exact hp⟩
  | succ n ih =>
    rw [← ChunkStream.looked_append (sink.files x.state) x.stream, List.mem_append] at hp
    rcases hp with hnow | hlater
    · exact ⟨0, hnow⟩
    · obtain ⟨k, hk⟩ := ih (x := x.step sink) hlater hn.step
      exact ⟨k + 1, hk⟩

/-- A sink that leaves the files alone lets the stream go its own way. -/
theorem stream_after {fs : FileSystem} (h : ∀ s, sink.files s = fs) (k : Nat) :
    (x.after sink k).stream = (x.stream.pulls fs k).stream := by
  induction k generalizing x with
  | zero => rfl
  | succ k ih =>
    rw [after, ih, step, pull, h]
    rfl

/-! ### Refusals -/

variable (sink x) in
/-- Either nothing is ever refused, or there is a first refusal. -/
theorem never_or_firstRefusal :
    (∀ k, (x.after sink k).refusal? sink = none) ∨ ∃ k e, x.FirstRefusal sink k e := by
  by_cases h : ∃ k, ((x.after sink k).refusal? sink).isSome
  · right
    obtain ⟨e, he⟩ := Option.isSome_iff_exists.mp (Nat.find_spec h)
    refine ⟨Nat.find h, e, fun i hi => ?_, he⟩
    have hnot := Nat.find_min h hi
    rwa [Option.not_isSome_iff_eq_none] at hnot
  · left
    intro k
    rw [← Option.not_isSome_iff_eq_none]
    exact fun hsome => h ⟨k, hsome⟩

/-- What comes before the first refusal was there and was taken. -/
theorem FirstRefusal.isTaken {k : Nat} {e : WriteError} (h : x.FirstRefusal sink k e) :
    ∀ i < k, (x.after sink i).IsTaken sink := by
  intro i hi
  refine ⟨?_, h.before i hi⟩
  obtain ⟨n, hn⟩ := x.exists_hasChunks sink
  obtain ⟨c, hc, -⟩ := Option.bind_eq_some_iff.mp h.refused
  have hk : k < n := (hn k).mp (by rw [hc]; rfl)
  exact (hn i).mpr (by omega)

/-! ### Offering -/

/-- The error that a refusal ends a run with; a broken pipe is none. -/
def errorOf (c : Chunk) (e : WriteError) : Option PipelineError :=
  if e = .brokenPipe then none else some (.cannotWrite c.id e)

variable (every taken : Nat)

/-- **A chunk that was taken**: the offering goes on after it. -/
theorem offer_taken (h : x.IsTaken sink) :
    ∃ log, Pipeline.offer sink every taken x.state x.stream
      = { Pipeline.offer sink every (taken + 1) (x.step sink).state (x.step sink).stream with
          log } := by
  obtain ⟨hc, hr⟩ := h
  obtain ⟨c, hc⟩ := Option.isSome_iff_exists.mp hc
  rw [refusal?, hc, Option.bind_some] at hr
  have hstate : (x.step sink).state = (sink.write x.state c).2 := by rw [step, hc]; rfl
  rw [Pipeline.offer]
  split
  · rename_i hnext
    rw [chunk?, pull, hnext] at hc
    cases hc
  · rename_i c' rest log hnext
    rw [chunk?, pull, hnext] at hc
    obtain rfl := Option.some.inj hc
    have hstream : (x.step sink).stream = rest := by rw [step, pull, hnext]
    split
    · rename_i hwrite
      rw [hwrite] at hr
      cases hr
    · rename_i hwrite
      rw [hwrite] at hr
      cases hr
    · rename_i after hwrite
      rw [hstate, hstream, hwrite]
      exact ⟨_, rfl⟩

/-- **A chunk that was refused**: the offering ends with it. -/
theorem offer_refused {c : Chunk} {e : WriteError} (hc : x.chunk? sink = some c)
    (hr : x.refusal? sink = some e) :
    ∃ log, Pipeline.offer sink every taken x.state x.stream
      = ⟨errorOf c e, (x.step sink).stream, taken, (x.step sink).state, log⟩ := by
  rw [refusal?, hc, Option.bind_some] at hr
  have hstate : (x.step sink).state = (sink.write x.state c).2 := by rw [step, hc]; rfl
  rw [Pipeline.offer]
  split
  · rename_i hnext
    rw [chunk?, pull, hnext] at hc
    cases hc
  · rename_i c' rest log hnext
    rw [chunk?, pull, hnext] at hc
    obtain rfl := Option.some.inj hc
    have hstream : (x.step sink).stream = rest := by rw [step, pull, hnext]
    rw [hstate, hstream]
    split
    · rename_i after hwrite
      rw [hwrite] at hr ⊢
      obtain rfl := Option.some.inj hr
      exact ⟨_, rfl⟩
    · rename_i e' after hne hwrite
      rw [hwrite] at hr ⊢
      obtain rfl := Option.some.inj hr
      refine ⟨log, ?_⟩
      rw [errorOf, if_neg (fun heq => hne (by rw [heq]))]
    · rename_i after hwrite
      rw [hwrite] at hr
      cases hr

/-- **No chunk is left**: the offering ends without an error. -/
theorem offer_ended (hc : x.chunk? sink = none) :
    ∃ log, Pipeline.offer sink every taken x.state x.stream
      = ⟨none, (x.step sink).stream, taken, x.state, log⟩ := by
  rw [Pipeline.offer]
  split
  · rename_i rest log hnext
    have hstream : (x.step sink).stream = rest := by rw [step, pull, hnext]
    rw [hstream]
    exact ⟨_, rfl⟩
  · rename_i hnext
    rw [chunk?, pull, hnext] at hc
    cases hc

/-- **As long as chunks are taken, the offering follows the exchange.**  By induction on their
number. -/
theorem offer_after {k : Nat} (h : ∀ i < k, (x.after sink i).IsTaken sink) :
    ∃ log, Pipeline.offer sink every taken x.state x.stream
      = { Pipeline.offer sink every (taken + k) (x.after sink k).state (x.after sink k).stream
          with log } := by
  induction k generalizing x taken with
  | zero => exact ⟨_, rfl⟩
  | succ k ih =>
    have hnow : x.IsTaken sink := h 0 (Nat.succ_pos k)
    have hthen : ∀ i < k, ((x.step sink).after sink i).IsTaken sink :=
      fun i hi => h (i + 1) (Nat.succ_lt_succ hi)
    obtain ⟨log, hfirst⟩ := offer_taken every taken hnow
    obtain ⟨log', hlater⟩ := ih (taken + 1) hthen
    refine ⟨log, ?_⟩
    rw [hfirst, hlater, Nat.add_assoc, Nat.add_comm 1 k]
    rfl

end Exchange

namespace Pipeline

variable {σ : Type} {sink : Sink σ} {p : Pipeline} {x : Exchange σ} {n : Nat}

/-- **What a run of a pipeline comes to** that starts from an exchange with `n` chunks. -/
structure Serves (p : Pipeline) (sink : Sink σ) (x : Exchange σ) (n : Nat) : Prop where
  /-- There are `n` chunks to offer. -/
  hasChunks : x.HasChunks sink n
  /-- If nothing is refused, all of them are offered, and the answer is the statistics of the
  exhausted stream, which count them. -/
  exhausted : (∀ k, (x.after sink k).refusal? sink = none) →
    (p.run sink x.state).result = .ok (x.after sink (n + 1)).stream.stats ∧
    (x.after sink (n + 1)).stream.stats.chunks = n ∧
    (p.run sink x.state).state = sink.offerAll x.state (x.offered sink n)
  /-- A broken pipe at chunk `k + 1` ends the run quietly.  The answer counts the `k` chunks that
  were taken, and everything else as the stream does after `k + 1` pulls. -/
  brokenPipe : ∀ k, x.FirstRefusal sink k .brokenPipe →
    (p.run sink x.state).result
      = .ok { (x.after sink (k + 1)).stream.stats with chunks := k } ∧
    (p.run sink x.state).state = sink.offerAll x.state (x.offered sink (k + 1))
  /-- Any other refusal at chunk `k + 1` ends the run with an error that names the chunk. -/
  refused : ∀ k e, x.FirstRefusal sink k e → e ≠ .brokenPipe →
    (∃ c, (x.after sink k).chunk? sink = some c ∧
      (p.run sink x.state).result = .error (.cannotWrite c.id e)) ∧
    (p.run sink x.state).state = sink.offerAll x.state (x.offered sink (k + 1))
  /-- A run fails in no other case. -/
  error_only : ∀ error, (p.run sink x.state).result = .error error →
    ∃ k c e, x.FirstRefusal sink k e ∧ e ≠ .brokenPipe ∧
      (x.after sink k).chunk? sink = some c ∧ error = .cannotWrite c.id e

/-- A run whose scan starts is an offering. -/
theorem run_eq {log : List LogLine}
    (hscan : p.scanner.scan (sink.files x.state) = .ok (x.stream, log)) :
    (p.run sink x.state).state = (offer sink p.progressEvery 0 x.state x.stream).state ∧
    (p.run sink x.state).result
      = match (offer sink p.progressEvery 0 x.state x.stream).error? with
        | some e => .error e
        | none => .ok { (offer sink p.progressEvery 0 x.state x.stream).stream.stats with
            chunks := (offer sink p.progressEvery 0 x.state x.stream).taken } := by
  unfold run
  rw [hscan]
  dsimp only
  cases (offer sink p.progressEvery 0 x.state x.stream).error? with
  | none => exact ⟨rfl, rfl⟩
  | some e => exact ⟨rfl, rfl⟩

/-- **A run that nothing refuses** goes on to the end of the stream. -/
theorem run_exhausted {log : List LogLine}
    (hscan : p.scanner.scan (sink.files x.state) = .ok (x.stream, log))
    (hn : x.HasChunks sink n) (htaken : ∀ k, (x.after sink k).refusal? sink = none) :
    (p.run sink x.state).result
      = .ok { (x.after sink (n + 1)).stream.stats with chunks := n } ∧
    (p.run sink x.state).state = (x.after sink n).state := by
  obtain ⟨hstate, hresult⟩ := run_eq hscan
  obtain ⟨log, hoffer⟩ := Exchange.offer_after p.progressEvery 0
    fun i hi => ⟨(hn i).mpr hi, htaken i⟩
  obtain ⟨log', hlast⟩ := Exchange.offer_ended p.progressEvery (0 + n) hn.chunk?_after
  rw [hlast, Nat.zero_add, ← Exchange.after_succ] at hoffer
  rw [hstate, hresult, hoffer]
  exact ⟨rfl, rfl⟩

/-- **A run ends with its first refusal.** -/
theorem run_refused {log : List LogLine}
    (hscan : p.scanner.scan (sink.files x.state) = .ok (x.stream, log)) {k : Nat} {e : WriteError}
    (h : x.FirstRefusal sink k e) :
    ∃ c, (x.after sink k).chunk? sink = some c ∧
      (p.run sink x.state).result
        = (match Exchange.errorOf c e with
          | some error => .error error
          | none => .ok { (x.after sink (k + 1)).stream.stats with chunks := k }) ∧
      (p.run sink x.state).state = (x.after sink (k + 1)).state := by
  obtain ⟨hstate, hresult⟩ := run_eq hscan
  obtain ⟨c, hc, -⟩ := Option.bind_eq_some_iff.mp h.refused
  obtain ⟨log, hoffer⟩ := Exchange.offer_after p.progressEvery 0 h.isTaken
  obtain ⟨log', hlast⟩ := Exchange.offer_refused p.progressEvery (0 + k) hc h.refused
  rw [hlast, Nat.zero_add, ← Exchange.after_succ] at hoffer
  refine ⟨c, hc, ?_, ?_⟩
  · rw [hresult, hoffer]
  · rw [hstate, hoffer]

/-- **A run that starts from a fresh stream serves its sink.** -/
theorem serves_of_scan {log : List LogLine}
    (hscan : p.scanner.scan (sink.files x.state) = .ok (x.stream, log))
    (hfresh : x.stream.stats.chunks = 0) (hn : x.HasChunks sink n) : p.Serves sink x n where
  hasChunks := hn
  exhausted hnever := by
    obtain ⟨hresult, hstate⟩ := run_exhausted hscan hn hnever
    have hcount : (x.after sink (n + 1)).stream.stats.chunks = n := by
      have hlast : (x.after sink (n + 1)).stream.stats.chunks
          = (x.after sink n).stream.stats.chunks
            + ((x.after sink n).chunk? sink).toList.length := by
        rw [Exchange.after_succ]
        exact ChunkStream.chunks_next _ _
      rw [hlast, hn.chunk?_after, Exchange.chunks_after, hfresh,
        Exchange.length_offered hn (Nat.le_refl n)]
      simp
    refine ⟨?_, hcount, ?_⟩
    · rw [hresult]
      nth_rewrite 2 [← hcount]
      rfl
    · rw [hstate, Exchange.state_after]
  brokenPipe k h := by
    obtain ⟨c, -, hresult, hstate⟩ := run_refused hscan h
    rw [hresult, hstate, Exchange.state_after]
    exact ⟨rfl, rfl⟩
  refused k e h hne := by
    obtain ⟨c, hc, hresult, hstate⟩ := run_refused hscan h
    rw [Exchange.errorOf, if_neg hne] at hresult
    exact ⟨⟨c, hc, hresult⟩, by rw [hstate, Exchange.state_after]⟩
  error_only error herror := by
    rcases Exchange.never_or_firstRefusal sink x with hnever | ⟨k, e, h⟩
    · rw [(run_exhausted hscan hn hnever).1] at herror
      cases herror
    · obtain ⟨c, hc, hresult, -⟩ := run_refused hscan h
      rw [hresult, Exchange.errorOf] at herror
      by_cases he : e = .brokenPipe
      · rw [if_pos he] at herror
        cases herror
      · rw [if_neg he] at herror
        exact ⟨k, c, e, h, he, hc, (Except.error.inj herror).symm⟩

end Pipeline

/-! ### The JSON-lines sink -/

namespace JsonLines

variable {ω : Type} {w : ByteWriter ω} {files : ω → FileSystem} {x : Exchange (State ω)}

/-- The sink counts a chunk if and only if it takes it. -/
theorem written_write (w : ByteWriter ω) (s : State ω) (c : Chunk) :
    (write w s c).2.written = s.written + (write w s c).1.elim 1 fun _ => 0 := by
  unfold write
  rcases w.writeAll s.writer (Json.chunkLine c) with ⟨_ | e, out⟩
  · dsimp only
    rcases w.flush out with ⟨_ | e, flushed⟩
    · rfl
    · rfl
  · rfl

theorem written_step_of_isTaken (h : x.IsTaken (sink w files)) :
    (x.step (sink w files)).state.written = x.state.written + 1 := by
  obtain ⟨c, hc⟩ := Option.isSome_iff_exists.mp h.1
  have hr : (write w x.state c).1 = none := by
    have hnone := h.2
    rwa [Exchange.refusal?, hc] at hnone
  rw [Exchange.step, hc]
  show (write w x.state c).2.written = _
  rw [written_write, hr]
  rfl

theorem written_step_of_refused {e : WriteError}
    (h : x.refusal? (sink w files) = some e) :
    (x.step (sink w files)).state.written = x.state.written := by
  obtain ⟨c, hc, hr⟩ := Option.bind_eq_some_iff.mp h
  change (write w x.state c).1 = some e at hr
  rw [Exchange.step, hc]
  show (write w x.state c).2.written = _
  rw [written_write, hr]
  rfl

theorem written_after {k : Nat} (h : ∀ i < k, (x.after (sink w files) i).IsTaken (sink w files)) :
    (x.after (sink w files) k).state.written = x.state.written + k := by
  induction k with
  | zero => rfl
  | succ k ih =>
    rw [Exchange.after_succ, written_step_of_isTaken (h k (Nat.lt_succ_self k)),
      ih fun i hi => h i (Nat.lt_succ_of_lt hi), Nat.add_assoc]

/-- **What the sink says that it wrote is what a run that succeeds counts.** -/
theorem written_run {p : Pipeline} {log : List LogLine}
    (hscan : p.scanner.scan (files x.state.writer) = .ok (x.stream, log)) {stats : ScanStats}
    (hok : (p.run (sink w files) x.state).result = .ok stats) :
    (p.run (sink w files) x.state).state.written = x.state.written + stats.chunks := by
  rcases Exchange.never_or_firstRefusal (sink w files) x with hnever | ⟨k, e, h⟩
  · obtain ⟨n, hn⟩ := x.exists_hasChunks (sink w files)
    obtain ⟨hresult, hstate⟩ := Pipeline.run_exhausted hscan hn hnever
    rw [hresult] at hok
    obtain rfl := Except.ok.inj hok
    rw [hstate, written_after fun i hi => ⟨(hn i).mpr hi, hnever i⟩]
  · obtain ⟨c, -, hresult, hstate⟩ := Pipeline.run_refused hscan h
    rw [hresult, Exchange.errorOf] at hok
    by_cases he : e = .brokenPipe
    · rw [if_pos he] at hok
      obtain rfl := Except.ok.inj hok
      rw [hstate, Exchange.after_succ, written_step_of_refused h.refused, written_after h.isTaken]
    · rw [if_neg he] at hok
      cases hok

end JsonLines

/-! ### Accepted settings -/

namespace Pipeline

/-- **A run serves whatever sink it is given.**  Once the options are accepted, whoever lists the
tracked paths and however often progress is reported, the scan starts and the run answers as
`Serves` says.  A sink that leaves the files alone is offered the chunks of the eager reading, and
a JSON-lines sink has written as many chunks as a run that succeeds counts. -/
theorem run_serves {fs : FileSystem} {o : ScanOptions} {checked : Scanner}
    (accepted : Scanner.ofOptions fs o = .ok checked) (tracked : Tracked.Provider) (every : Nat) :
    (∀ (σ : Type) (sink : Sink σ) (state : σ), ∃ stream log n,
      { checked with tracked }.scan (sink.files state) = .ok (stream, log) ∧
      Serves ⟨{ checked with tracked }, every⟩ sink ⟨stream, state⟩ n ∧
      ((∀ s, sink.files s = sink.files state) → ∀ k,
        Exchange.offered sink k ⟨stream, state⟩
          = ({ checked with tracked }.chunks (sink.files state)).take k ∧
        (Exchange.after sink k ⟨stream, state⟩).stream
          = (stream.pulls (sink.files state) k).stream)) ∧
    (∀ (ω : Type) (w : ByteWriter ω) (files : ω → FileSystem) (out : ω) (stats : ScanStats),
      (run ⟨{ checked with tracked }, every⟩ (JsonLines.sink w files) ⟨out, 0⟩).result = .ok stats →
      (run ⟨{ checked with tracked }, every⟩ (JsonLines.sink w files) ⟨out, 0⟩).state.written
        = stats.chunks) := by
  refine ⟨?_, ?_⟩
  · intro σ sink state
    obtain ⟨source, log, hscan⟩ := Scanner.scan_of_accepted accepted tracked (sink.files state)
    set scanner : Scanner := { checked with tracked }
    set stream : ChunkStream :=
      { scope := scanner.scope, source, paths := scanner.expectedPaths (sink.files state) }
    obtain ⟨n, hn⟩ := Exchange.exists_hasChunks sink ⟨stream, state⟩
    refine ⟨stream, log, n, hscan, serves_of_scan hscan rfl hn, fun hfiles k => ⟨?_, ?_⟩⟩
    · -- files that do not change give the same chunks at every pull
      have hfinds : ∀ i, Exchange.Finds sink (Exchange.after sink i ⟨stream, state⟩)
          (fun p => (FileReport.ofPath (sink.files state) scanner.scope p).chunks) := by
        intro i p _
        rw [Exchange.scope_after, hfiles]
      rw [Exchange.offered_eq_take hfinds, Scanner.chunks, Scanner.paths_candidates]
      rfl
    · exact Exchange.stream_after hfiles k
  · intro ω w files out stats hok
    obtain ⟨source, log, hscan⟩ := Scanner.scan_of_accepted accepted tracked (files out)
    have hwritten := JsonLines.written_run (p := ⟨{ checked with tracked }, every⟩)
      (x := ⟨_, ⟨out, 0⟩⟩) hscan hok
    rwa [Nat.zero_add] at hwritten

/-- A run over three tracked paths, one of them with a chunk, into a sink whose reader is gone. -/
theorem run_serves_mixedRepository :
    ∃ checked, Scanner.ofOptions Scanner.mixedRepository { root := Path.ofString "repo" }
        = .ok checked ∧
      ∃ stream log n,
        { checked with tracked := Scanner.mixedTracked }.scan Scanner.mixedRepository
          = .ok (stream, log) ∧
        Serves ⟨{ checked with tracked := Scanner.mixedTracked }, 0⟩
          (Sink.limited Scanner.mixedRepository 0 .brokenPipe) ⟨stream, []⟩ n ∧
        Exchange.offered (Sink.limited Scanner.mixedRepository 0 .brokenPipe) 1 ⟨stream, []⟩
          = ({ checked with tracked := Scanner.mixedTracked }.chunks
              Scanner.mixedRepository).take 1 ∧
        stream.source = .tracked ∧
        (Exchange.offered (Sink.limited Scanner.mixedRepository 0 .brokenPipe) 1
          ⟨stream, []⟩).map (fun c => (c.filepath, c.content)) = [("a.py", "def f():\n    pass")] ∧
        Exchange.FirstRefusal (Sink.limited Scanner.mixedRepository 0 .brokenPipe) ⟨stream, []⟩ 0
          .brokenPipe ∧
        (run ⟨{ checked with tracked := Scanner.mixedTracked }, 0⟩
          (Sink.limited Scanner.mixedRepository 0 .brokenPipe) []).result = .ok {
            files := 1, chunks := 0, skipped := 1, totalLines := 5, languages := [("python", 1)]
            readErrors := 1 } := by
  obtain ⟨checked, stream, log, haccepted, hscan, hsource, hoffered, hrefused, hstats⟩ :
      ∃ checked stream log,
      Scanner.ofOptions Scanner.mixedRepository { root := Path.ofString "repo" } = .ok checked ∧
      { checked with tracked := Scanner.mixedTracked }.scan Scanner.mixedRepository
        = .ok (stream, log) ∧
      stream.source = .tracked ∧
      (Exchange.offered (Sink.limited Scanner.mixedRepository 0 .brokenPipe) 1
        ⟨stream, []⟩).map (fun c => (c.filepath, c.content)) = [("a.py", "def f():\n    pass")] ∧
      Exchange.refusal? (Sink.limited Scanner.mixedRepository 0 .brokenPipe) ⟨stream, []⟩
        = some .brokenPipe ∧
      (Exchange.after (Sink.limited Scanner.mixedRepository 0 .brokenPipe) 1
        ⟨stream, []⟩).stream.stats = {
          files := 1, chunks := 1, skipped := 1, totalLines := 5, languages := [("python", 1)]
          readErrors := 1 } :=
    ⟨_, _, _, rfl, rfl, rfl, by decide +kernel, by decide +kernel, by decide +kernel⟩
  obtain ⟨stream', log', n, hscan', hserves, htaken⟩ :=
    (run_serves haccepted Scanner.mixedTracked 0).1 _
      (Sink.limited Scanner.mixedRepository 0 .brokenPipe) []
  obtain ⟨rfl, -⟩ := Prod.mk.inj (Except.ok.inj (hscan'.symm.trans hscan))
  have hfirst : Exchange.FirstRefusal (Sink.limited Scanner.mixedRepository 0 .brokenPipe)
      ⟨stream', []⟩ 0 .brokenPipe := ⟨nofun, hrefused⟩
  have hresult := (hserves.brokenPipe 0 hfirst).1
  rw [hstats] at hresult
  exact ⟨checked, haccepted, stream', log', n, hscan', hserves, (htaken (fun _ => rfl) 1).1,
    hsource, hoffered, hfirst, hresult⟩

end Pipeline

end SourceChunks
