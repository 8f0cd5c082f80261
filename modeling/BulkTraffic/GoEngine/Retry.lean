import Mathlib.Data.List.Induction
import Mathlib.Algebra.Order.Ring.Int
import Mathlib.Tactic.Positivity

/-!
# Retrying a task

`executeWithRetry` calls the handler of a pool until a call succeeds, at most once more than
`MaxRetries`, and waits between two calls: `BaseDelay` doubled with each attempt, at most
`MaxDelay`, and a random part of up to a half on top. Nothing checks the configuration.

Durations and `int` are 64-bit numbers, whose arithmetic wraps around, and `rand.Int63n` panics
unless its argument is positive. What the handler returns, whether a wait ends with the context and
what the random numbers are comes from outside (`RetryEnv`).

* `executeWithRetry_honest_iff`: the error is `nil` exactly after a call that succeeded, if
  `MaxRetries` is not negative; a negative one makes no call and returns no error.
* `backoff_exact_iff`: which delays are waited for as they are configured.
-/

namespace BulkTraffic.GoEngine

/-- What a call of the handler returns. -/
abbrev HandlerResult := Except String (List UInt8)

/-- `RetryConfig`, with the durations in nanoseconds. -/
structure RetryConfig where
  maxRetries : Int64 := 0
  baseDelay : Int64 := 0
  maxDelay : Int64 := 0

/-- What `executeWithRetry` meets. -/
structure RetryEnv where
  /-- What the calls of the handler return. -/
  handler : ℕ → HandlerResult
  /-- The error of the context, where the wait after a call ends with the context. -/
  contextDone : ℕ → Option String
  /-- The random numbers. -/
  random : ℕ → ℕ

/-- How `executeWithRetry` ends. -/
inductive RetryOutcome where
  /-- It returns. -/
  | returned (result : List UInt8) (error : Option String)
  /-- It panics. -/
  | panicked (message : String)
  deriving DecidableEq

/-- How `executeWithRetry` ends, the calls of the handler it has made and the waits. -/
structure RetryRun where
  outcome : RetryOutcome
  calls : List HandlerResult := []
  waits : List Int64 := []

/-- `rand.Int63n(n)`. -/
def int63n (random : ℕ) (n : Int64) : Except String Int64 :=
  if n ≤ 0 then .error "invalid argument to Int63n" else .ok (Int64.ofInt (random % n.toInt))

namespace RetryConfig

/-- `maxRetries`: none means three. -/
def retries (config : RetryConfig) : Int64 := if config.maxRetries = 0 then 3 else config.maxRetries

/-- `delay`, before the random part. -/
def delay (config : RetryConfig) (attempt : ℕ) : Int64 :=
  let delay := config.baseDelay * Int64.ofInt (2 ^ attempt)
  if config.maxDelay < delay ∧ 0 < config.maxDelay then config.maxDelay else delay

/-- `delay + jitter`. -/
def backoff (config : RetryConfig) (attempt random : ℕ) : Except String Int64 :=
  (int63n random (config.delay attempt / 2)).map fun jitter => config.delay attempt + jitter

/-- The loop from an attempt on. -/
def retryLoop (config : RetryConfig) (env : RetryEnv) : ℕ → ℕ → Option String → RetryRun
  | 0, _, lastErr => { outcome := .returned [] lastErr }
  | rounds + 1, attempt, _ =>
    match env.handler attempt with
    | .ok result => { outcome := .returned result none, calls := [.ok result] }
    | .error err =>
      if attempt < config.retries.toInt then
        match config.backoff attempt (env.random attempt) with
        | .error message => { outcome := .panicked message, calls := [.error err] }
        | .ok delay =>
          match env.contextDone attempt with
          | some done =>
            { outcome := .returned [] (some done), calls := [.error err], waits := [delay] }
          | none =>
            let run := retryLoop config env rounds (attempt + 1) (some err)
            { run with calls := .error err :: run.calls, waits := delay :: run.waits }
      else
        let run := retryLoop config env rounds (attempt + 1) (some err)
        { run with calls := .error err :: run.calls }

/-- `executeWithRetry(..)`. -/
def executeWithRetry (config : RetryConfig) (env : RetryEnv) : RetryRun :=
  config.retryLoop env (config.retries.toInt + 1).toNat 0 none

/-! ### The result -/

/-- What the run says is what the handler did. -/
structure Honest (config : RetryConfig) (env : RetryEnv) (run : RetryRun) : Prop where
  /-- The error is `nil` if and only if the last call succeeded. -/
  nilError_iff : (∃ result, run.outcome = .returned result none) ↔
    ∃ result, run.calls.getLast? = some (.ok result)
  /-- The result is that of the last call. -/
  result : ∀ result, run.calls.getLast? = some (.ok result) → run.outcome = .returned result none
  /-- No call is made after a success. -/
  stops : ∀ result, .ok result ∉ run.calls.dropLast
  /-- No more calls are made than configured. -/
  bounded : (run.calls.length : ℤ) ≤ config.retries.toInt + 1
  /-- The calls are those of the handler, in order. -/
  made : run.calls = (List.range run.calls.length).map env.handler

/-- The ways a run of the loop can end: with the first success, or with an error or a panic after
calls that failed. -/
def Ends (run : RetryRun) : Prop :=
  (∃ failed result, run.outcome = .returned result none ∧ run.calls = failed ++ [.ok result] ∧
    ∀ result', .ok result' ∉ failed) ∨
  ((∀ result, run.outcome ≠ .returned result none) ∧ ∀ result', .ok result' ∉ run.calls)

variable {config : RetryConfig} {env : RetryEnv}

/-- A failed call before the others changes neither. -/
theorem ends_cons {run : RetryRun} (h : Ends run) (err : String) (waits : List Int64) :
    Ends { run with calls := .error err :: run.calls, waits := waits } := by
  rcases h with ⟨failed, result, houtcome, hcalls, hfailed⟩ | ⟨houtcome, hcalls⟩
  · refine .inl ⟨.error err :: failed, result, houtcome, ?_, ?_⟩
    · rw [hcalls, List.cons_append]
    · intro result' hmem
      exact hfailed result' ((List.mem_cons.mp hmem).resolve_left nofun)
  · refine .inr ⟨houtcome, ?_⟩
    intro result' hmem
    exact hcalls result' ((List.mem_cons.mp hmem).resolve_left nofun)

/-- The loop ends so, if it makes a call or has an error to return. -/
theorem ends_retryLoop (rounds attempt : ℕ) (lastErr : Option String)
    (h : 0 < rounds ∨ lastErr ≠ none) : Ends (config.retryLoop env rounds attempt lastErr) := by
  induction rounds generalizing attempt lastErr with
  | zero =>
    have herr : lastErr ≠ none := h.resolve_left (Nat.lt_irrefl 0)
    refine .inr ⟨?_, by simp [retryLoop]⟩
    intro result heq
    exact herr (RetryOutcome.returned.inj heq).2
  | succ rounds ih =>
    rw [retryLoop]
    split
    · rename_i result _
      exact .inl ⟨[], result, rfl, rfl, by simp⟩
    · rename_i err _
      have hnext := ih (attempt + 1) (some err) (.inr nofun)
      split
      · split
        · exact .inr ⟨nofun, by simp⟩
        · split
          · exact .inr ⟨nofun, by simp⟩
          · exact ends_cons hnext err _
      · exact ends_cons hnext err _

theorem length_calls_retryLoop (config : RetryConfig) (env : RetryEnv) (rounds attempt : ℕ) (lastErr : Option String) :
    (config.retryLoop env rounds attempt lastErr).calls.length ≤ rounds := by
  induction rounds generalizing attempt lastErr with
  | zero => exact Nat.le_refl 0
  | succ rounds ih =>
    rw [retryLoop]
    split
    · exact Nat.succ_le_succ (Nat.zero_le rounds)
    · rename_i err _
      have hnext := ih (attempt + 1) (some err)
      split
      · split
        · exact Nat.succ_le_succ (Nat.zero_le rounds)
        · split
          · exact Nat.succ_le_succ (Nat.zero_le rounds)
          · exact Nat.succ_le_succ hnext
      · exact Nat.succ_le_succ hnext

/-- The loop calls the handler from its first attempt on. -/
theorem calls_retryLoop (config : RetryConfig) (env : RetryEnv) (rounds attempt : ℕ) (lastErr : Option String) :
    (config.retryLoop env rounds attempt lastErr).calls =
      (List.range (config.retryLoop env rounds attempt lastErr).calls.length).map
        fun i => env.handler (attempt + i) := by
  -- a call, and the calls of the following attempts
  have hcons : ∀ {attempt : ℕ} {call : HandlerResult} {calls : List HandlerResult},
      env.handler attempt = call →
      calls = (List.range calls.length).map (fun i => env.handler (attempt + 1 + i)) →
      call :: calls = (List.range (calls.length + 1)).map fun i => env.handler (attempt + i) := by
    intro attempt call calls hcall hcalls
    rw [List.range_succ_eq_map, List.map_cons, List.map_map, Nat.add_zero, hcall]
    congr 1
    refine hcalls.trans (List.map_congr_left fun i _ => ?_)
    rw [Function.comp_apply, Nat.add_assoc, Nat.add_comm 1]
  induction rounds generalizing attempt lastErr with
  | zero => rfl
  | succ rounds ih =>
    rw [retryLoop]
    split
    · rename_i result hcall
      exact hcons hcall rfl
    · rename_i err hcall
      have hnext := ih (attempt + 1) (some err)
      split
      · split
        · exact hcons hcall rfl
        · split
          · exact hcons hcall rfl
          · exact hcons hcall hnext
      · exact hcons hcall hnext

theorem retries_nonneg (config : RetryConfig) : 0 ≤ config.retries ↔ 0 ≤ config.maxRetries := by
  rw [retries]
  split
  · rename_i hzero
    rw [hzero]
    decide
  · exact Iff.rfl

/-- **`executeWithRetry` is honest exactly if `MaxRetries` is not negative.** -/
theorem executeWithRetry_honest_iff (config : RetryConfig) (env : RetryEnv) :
    Honest config env (config.executeWithRetry env) ↔ 0 ≤ config.maxRetries := by
  have hretries := retries_nonneg config
  rw [Int64.le_iff_toInt_le, Int64.toInt_zero] at hretries
  constructor
  · intro h
    by_contra hneg
    have hrounds : (config.retries.toInt + 1).toNat = 0 := by
      have := mt hretries.mp hneg
      omega
    have hrun : config.executeWithRetry env = { outcome := .returned [] none } := by
      rw [executeWithRetry, hrounds, retryLoop]
    obtain ⟨result, hlast⟩ := h.nilError_iff.mp ⟨[], by rw [hrun]⟩
    rw [hrun] at hlast
    cases hlast
  · intro hmax
    have hnonneg := hretries.mpr hmax
    have hends : Ends (config.executeWithRetry env) :=
      ends_retryLoop _ 0 none (.inl (by omega))
    have hlength := length_calls_retryLoop config env
      (config.retries.toInt + 1).toNat 0 none
    have hbounded : ((config.executeWithRetry env).calls.length : ℤ) ≤ config.retries.toInt + 1 := by
      rw [executeWithRetry]
      omega
    have hmade : (config.executeWithRetry env).calls =
        (List.range (config.executeWithRetry env).calls.length).map env.handler := by
      have hcalls := calls_retryLoop config env
        (config.retries.toInt + 1).toNat 0 none
      simp only [Nat.zero_add] at hcalls
      exact hcalls
    rcases hends with ⟨failed, result, houtcome, hcalls, hfailed⟩ | ⟨houtcome, hcalls⟩
    · have hlast : (config.executeWithRetry env).calls.getLast? = some (.ok result) := by
        rw [hcalls, List.getLast?_append, List.getLast?_singleton, Option.some_or]
      refine ⟨⟨fun _ => ⟨result, hlast⟩, fun _ => ⟨result, houtcome⟩⟩, ?_, ?_, hbounded, hmade⟩
      · intro result' hlast'
        obtain rfl : result = result' := Except.ok.inj (Option.some.inj (hlast.symm.trans hlast'))
        exact houtcome
      · rw [hcalls, List.dropLast_concat]
        exact hfailed
    · have hlast : ∀ result, (config.executeWithRetry env).calls.getLast? ≠ some (.ok result) :=
        fun result hlast => hcalls result (List.mem_of_getLast? hlast)
      refine ⟨⟨?_, ?_⟩, ?_, ?_, hbounded, hmade⟩
      · rintro ⟨result, hreturned⟩
        exact absurd hreturned (houtcome result)
      · rintro ⟨result, hreturned⟩
        exact absurd hreturned (hlast result)
      · intro result hreturned
        exact absurd hreturned (hlast result)
      · intro result hmem
        exact hcalls result (List.dropLast_subset _ hmem)

/-- With `MaxRetries` of `-1` the handler is not called, and the error is `nil`. -/
theorem success_without_call :
    let config : RetryConfig := { maxRetries := -1, baseDelay := 100000000, maxDelay := 2000000000 }
    let env : RetryEnv :=
      { handler := fun _ => .error "failed", contextDone := fun _ => none, random := fun _ => 0 }
    (config.executeWithRetry env).outcome = .returned [] none ∧
      ¬ Honest config env (config.executeWithRetry env) := by
  intro config env
  have hrun : config.executeWithRetry env = { outcome := .returned [] none } := rfl
  refine ⟨rfl, fun h => ?_⟩
  obtain ⟨result, hlast⟩ := h.nilError_iff.mp ⟨[], rfl⟩
  rw [hrun] at hlast
  cases hlast

/-! ### The waits -/

/-- The delay as it is configured, before the random part. -/
def exactDelay (config : RetryConfig) (attempt : ℕ) : ℤ :=
  if 0 < config.maxDelay.toInt then
    min (config.baseDelay.toInt * 2 ^ attempt) config.maxDelay.toInt
  else config.baseDelay.toInt * 2 ^ attempt

/-- The wait after an attempt is the configured delay and a random part of less than its half,
whatever the random number is, and no earlier delay is longer. -/
structure BackoffExact (config : RetryConfig) (attempt : ℕ) : Prop where
  wait : ∀ random, ∃ (wait : Int64) (jitter : ℤ), config.backoff attempt random = .ok wait ∧
    wait.toInt = config.exactDelay attempt + jitter ∧ 0 ≤ jitter ∧
    jitter < max 1 (config.exactDelay attempt / 2) ∧ 0 ≤ wait.toInt
  nondecreasing : ∀ earlier ≤ attempt, config.exactDelay earlier ≤ config.exactDelay attempt

/-- The configured delay is at least two nanoseconds, it and its half are less than `2 ^ 63`
together, and the product does not wrap around to less than the cap. -/
def Representable (config : RetryConfig) (attempt : ℕ) : Prop :=
  2 ≤ config.exactDelay attempt ∧
    config.exactDelay attempt + config.exactDelay attempt / 2 ≤ 2 ^ 63 ∧
    (config.baseDelay.toInt * 2 ^ attempt < 2 ^ 63 ∨
      config.maxDelay.toInt ≤ (config.baseDelay.toInt * 2 ^ attempt).bmod (2 ^ 64))

instance (config : RetryConfig) (attempt : ℕ) : Decidable (Representable config attempt) :=
  inferInstanceAs (Decidable (_ ∧ _ ∧ _))

theorem toInt_delay (config : RetryConfig) (attempt : ℕ) :
    (config.delay attempt).toInt =
      let product := (config.baseDelay.toInt * 2 ^ attempt).bmod (2 ^ 64)
      if config.maxDelay.toInt < product ∧ 0 < config.maxDelay.toInt then config.maxDelay.toInt
      else product := by
  have hproduct : (config.baseDelay * Int64.ofInt (2 ^ attempt)).toInt =
      (config.baseDelay.toInt * 2 ^ attempt).bmod (2 ^ 64) := by
    rw [Int64.toInt_mul, Int64.toInt_ofInt, Int64.size, Int.mul_bmod_bmod]
    rfl
  have hcap : config.maxDelay < config.baseDelay * Int64.ofInt (2 ^ attempt) ∧ 0 < config.maxDelay ↔
      config.maxDelay.toInt < (config.baseDelay.toInt * 2 ^ attempt).bmod (2 ^ 64) ∧
        0 < config.maxDelay.toInt := by
    rw [Int64.lt_iff_toInt_lt, Int64.lt_iff_toInt_lt, hproduct, Int64.toInt_zero]
  rw [delay]
  simp only [hcap]
  split
  · rfl
  · exact hproduct

/-- A number that needs no more than 63 bits does not wrap around, and no other is kept. -/
theorem bmod_eq_iff {n : ℤ} (hn : 0 ≤ n) : n.bmod (2 ^ 64) = n ↔ n < 2 ^ 63 := by
  have hlt := Int.bmod_lt (x := n) (m := 2 ^ 64) (by decide)
  constructor
  · intro h
    omega
  · intro h
    exact Int.bmod_eq_of_le (by omega) (by omega)

theorem bmod_le {n : ℤ} (hn : 0 ≤ n) : n.bmod (2 ^ 64) ≤ n := by
  by_cases hfits : n < 2 ^ 63
  · exact le_of_eq ((bmod_eq_iff hn).mpr hfits)
  · have hlt := Int.bmod_lt (x := n) (m := 2 ^ 64) (by decide)
    omega

/-- One that needs the 64th bit becomes negative. -/
theorem bmod_neg {n : ℤ} (hn : 2 ^ 63 ≤ n) (hn' : n < 2 ^ 64) : n.bmod (2 ^ 64) < 0 := by
  have hmod : n % ((2 ^ 64 : ℕ) : ℤ) = n := Int.emod_eq_of_lt (by omega) (by omega)
  rw [Int.bmod_def, hmod]
  split <;> omega

section Exact

variable (attempt : ℕ) (hbase : 0 ≤ config.baseDelay.toInt)

include hbase

theorem product_nonneg : 0 ≤ config.baseDelay.toInt * 2 ^ attempt :=
  mul_nonneg hbase (by positivity)

theorem exactDelay_mono {earlier : ℕ} (h : earlier ≤ attempt) :
    config.exactDelay earlier ≤ config.exactDelay attempt := by
  have hproduct : config.baseDelay.toInt * 2 ^ earlier ≤ config.baseDelay.toInt * 2 ^ attempt :=
    mul_le_mul_of_nonneg_left (pow_le_pow_right₀ (by decide) h) hbase
  rw [exactDelay, exactDelay]
  split
  · exact min_le_min_right _ hproduct
  · exact hproduct

/-- The computed delay is never longer than the configured one. -/
theorem delay_le : (config.delay attempt).toInt ≤ config.exactDelay attempt := by
  have hproduct := bmod_le (product_nonneg attempt hbase)
  have hcap : config.maxDelay.toInt < 2 ^ 63 := config.maxDelay.toInt_lt
  rw [toInt_delay, exactDelay]
  dsimp only
  split_ifs <;> omega

/-- It is the configured one where the product does not wrap around to less than the cap. -/
theorem delay_eq_iff (hfits : config.exactDelay attempt < 2 ^ 63) :
    (config.delay attempt).toInt = config.exactDelay attempt ↔
      config.baseDelay.toInt * 2 ^ attempt < 2 ^ 63 ∨
        config.maxDelay.toInt ≤ (config.baseDelay.toInt * 2 ^ attempt).bmod (2 ^ 64) := by
  have hkept := bmod_eq_iff (product_nonneg attempt hbase)
  have hlt := Int.bmod_lt (x := config.baseDelay.toInt * 2 ^ attempt) (m := 2 ^ 64) (by decide)
  have hcap : config.maxDelay.toInt < 2 ^ 63 := config.maxDelay.toInt_lt
  rw [exactDelay] at hfits
  rw [toInt_delay, exactDelay]
  dsimp only
  split_ifs at hfits ⊢ <;> omega

end Exact

/-- `rand.Int63n` takes a positive number and gives any smaller one. -/
theorem int63n_ok {random : ℕ} {n jitter : Int64} (h : int63n random n = .ok jitter) :
    0 < n.toInt ∧ jitter.toInt = random % n.toInt := by
  rw [int63n] at h
  split at h
  · cases h
  · rename_i hpos
    rw [Int64.le_iff_toInt_le, Int64.toInt_zero, not_le] at hpos
    obtain rfl := Except.ok.inj h
    have hrange := Int.emod_lt_of_pos random hpos
    have hnonneg := Int.emod_nonneg random (ne_of_gt hpos)
    have hbound := n.toInt_lt
    exact ⟨hpos, Int64.toInt_ofInt_of_le (by omega) (by omega)⟩

theorem int63n_of_pos {n : Int64} (random : ℕ) (h : 0 < n.toInt) :
    ∃ jitter, int63n random n = .ok jitter := by
  rw [int63n, if_neg]
  · exact ⟨_, rfl⟩
  · rw [Int64.le_iff_toInt_le, Int64.toInt_zero]
    omega

theorem toInt_half (config : RetryConfig) (attempt : ℕ) :
    (config.delay attempt / 2).toInt = (config.delay attempt).toInt.tdiv 2 :=
  Int64.toInt_div_of_ne_right _ _ (by decide)

/-- A wait that does not panic is the delay and less than its half. -/
theorem toInt_backoff {attempt random : ℕ} {wait : Int64}
    (h : config.backoff attempt random = .ok wait) :
    2 ≤ (config.delay attempt).toInt ∧ wait.toInt = ((config.delay attempt).toInt +
      random % ((config.delay attempt).toInt / 2)).bmod (2 ^ 64) := by
  rw [backoff] at h
  cases hjitter : int63n random (config.delay attempt / 2) with
  | error message =>
    rw [hjitter] at h
    cases h
  | ok jitter =>
    rw [hjitter] at h
    obtain rfl := Except.ok.inj h
    obtain ⟨hpos, hmod⟩ := int63n_ok hjitter
    rw [toInt_half] at hpos hmod
    have htwo : 2 ≤ (config.delay attempt).toInt := by
      rw [Int.tdiv_eq_ediv, show Int.sign 2 = 1 from rfl] at hpos
      split at hpos <;> omega
    rw [Int.tdiv_eq_ediv_of_nonneg (by omega)] at hmod
    exact ⟨htwo, by rw [Int64.toInt_add, hmod]⟩

theorem backoff_of_two_le {attempt : ℕ} (random : ℕ) (h : 2 ≤ (config.delay attempt).toInt) :
    ∃ wait, config.backoff attempt random = .ok wait := by
  have hpos : 0 < (config.delay attempt / 2).toInt := by
    rw [toInt_half, Int.tdiv_eq_ediv_of_nonneg (by omega)]
    omega
  obtain ⟨jitter, hjitter⟩ := int63n_of_pos random hpos
  exact ⟨_, by rw [backoff, hjitter]; rfl⟩

/-- A representable delay is computed as it is configured. -/
theorem backoffExact_of_representable {attempt : ℕ} (hbase : 0 ≤ config.baseDelay.toInt)
    (h : Representable config attempt) : BackoffExact config attempt := by
  obtain ⟨htwo, hfits, hproduct⟩ := h
  have hexact := (delay_eq_iff attempt hbase (by omega)).mpr hproduct
  refine ⟨fun random => ?_, fun earlier h => exactDelay_mono attempt hbase h⟩
  obtain ⟨wait, hbackoff⟩ := backoff_of_two_le random (hexact.symm ▸ htwo)
  obtain ⟨-, hcomputed⟩ := toInt_backoff hbackoff
  rw [hexact] at hcomputed
  have hnonneg := Int.emod_nonneg random (show config.exactDelay attempt / 2 ≠ 0 by omega)
  have hless := Int.emod_lt_of_pos random (show 0 < config.exactDelay attempt / 2 by omega)
  have hkept := (bmod_eq_iff (by omega)).mpr
    (show config.exactDelay attempt + random % (config.exactDelay attempt / 2) < 2 ^ 63 by omega)
  exact ⟨wait, _, hbackoff, hcomputed.trans hkept, hnonneg, lt_max_of_lt_right hless, by omega⟩

/-- **Which delays are waited for as they are configured.** -/
theorem backoff_exact_iff (config : RetryConfig) (attempt : ℕ) (hbase : 0 ≤ config.baseDelay) :
    BackoffExact config attempt ↔ Representable config attempt := by
  rw [Int64.le_iff_toInt_le, Int64.toInt_zero] at hbase
  have hle := delay_le attempt hbase
  have hdelay := (config.delay attempt).toInt_lt
  constructor
  · rintro ⟨hwait, -⟩
    obtain ⟨wait, jitter, hbackoff, hvalue, hjitter, -⟩ := hwait 0
    obtain ⟨htwo, hcomputed⟩ := toInt_backoff hbackoff
    -- The random number zero adds nothing, so the delay itself is the configured one.
    have hzero : wait.toInt = (config.delay attempt).toInt := by
      rw [hcomputed, Nat.cast_zero, Int.zero_emod, add_zero]
      exact (bmod_eq_iff (by omega)).mpr hdelay
    have hexact : (config.delay attempt).toInt = config.exactDelay attempt := by omega
    refine ⟨by omega, ?_, (delay_eq_iff attempt hbase (by omega)).mp hexact⟩
    -- The greatest random part must not wrap around.
    obtain ⟨wait', jitter', hbackoff', -, -, -, hnonneg⟩ :=
      hwait (config.exactDelay attempt / 2 - 1).toNat
    obtain ⟨-, hcomputed'⟩ := toInt_backoff hbackoff'
    have hgreatest : ((config.exactDelay attempt / 2 - 1).toNat : ℤ) %
        (config.exactDelay attempt / 2) = config.exactDelay attempt / 2 - 1 := by
      rw [Int.toNat_of_nonneg (by omega), Int.emod_eq_of_lt (by omega) (by omega)]
    rw [hexact, hgreatest] at hcomputed'
    by_contra hlarge
    have hwrap := bmod_neg
      (show (2 : ℤ) ^ 63 ≤ config.exactDelay attempt + (config.exactDelay attempt / 2 - 1) by omega)
      (by omega)
    omega
  · exact backoffExact_of_representable hbase

/-- A wait of the configured length after an attempt. -/
def WaitsFor (config : RetryConfig) (attempt : ℕ) (wait : Int64) : Prop :=
  ∃ jitter : ℤ, wait.toInt = config.exactDelay attempt + jitter ∧ 0 ≤ jitter ∧
    jitter < max 1 (config.exactDelay attempt / 2)

/-- Nothing is waited for after the last attempt. -/
theorem waits_eq_nil (rounds : ℕ) {attempt : ℕ} (lastErr : Option String)
    (hlast : config.retries.toInt ≤ attempt) :
    (config.retryLoop env rounds attempt lastErr).waits = [] := by
  induction rounds generalizing attempt lastErr with
  | zero => rfl
  | succ rounds ih =>
    rw [retryLoop]
    split
    · rfl
    · rename_i err _
      rw [if_neg (by omega)]
      exact ih (some err) (by omega)

theorem waits_retryLoop (env : RetryEnv) (hbase : 0 ≤ config.baseDelay.toInt)
    (h : ∀ attempt : ℕ, attempt < config.retries.toInt → Representable config attempt)
    (rounds attempt : ℕ) (lastErr : Option String) :
    (∀ message, (config.retryLoop env rounds attempt lastErr).outcome ≠ .panicked message) ∧
      ∀ k wait, (config.retryLoop env rounds attempt lastErr).waits[k]? = some wait →
        WaitsFor config (attempt + k) wait := by
  induction rounds generalizing attempt lastErr with
  | zero => exact ⟨nofun, nofun⟩
  | succ rounds ih =>
    rw [retryLoop]
    split
    · exact ⟨nofun, nofun⟩
    · rename_i err _
      obtain ⟨hpanic, hwaits⟩ := ih (attempt + 1) (some err)
      split
      · rename_i hretry
        obtain ⟨wait, jitter, hbackoff, hvalue, hnonneg, hless, -⟩ :=
          (backoffExact_of_representable hbase (h attempt hretry)).wait (env.random attempt)
        rw [hbackoff]
        dsimp only
        split
        · refine ⟨nofun, fun k wait' hk => ?_⟩
          cases k with
          | zero => exact Option.some.inj hk ▸ ⟨jitter, hvalue, hnonneg, hless⟩
          | succ k => cases hk
        · refine ⟨hpanic, fun k wait' hk => ?_⟩
          cases k with
          | zero => exact Option.some.inj hk ▸ ⟨jitter, hvalue, hnonneg, hless⟩
          | succ k =>
            rw [Nat.add_comm k, ← Nat.add_assoc]
            exact hwaits k wait' hk
      · rename_i hlast
        refine ⟨hpanic, fun k wait' hk => ?_⟩
        rw [waits_eq_nil rounds (some err) (by omega)] at hk
        cases hk

/-- **`executeWithRetry` waits as configured** and does not panic, where all the delays it may
need can be waited for. -/
theorem executeWithRetry_waits (hbase : 0 ≤ config.baseDelay)
    (h : ∀ attempt : ℕ, attempt < config.retries.toInt → Representable config attempt)
    (env : RetryEnv) :
    (∀ message, (config.executeWithRetry env).outcome ≠ .panicked message) ∧
      ∀ attempt wait, (config.executeWithRetry env).waits[attempt]? = some wait →
        WaitsFor config attempt wait := by
  rw [Int64.le_iff_toInt_le, Int64.toInt_zero] at hbase
  have hloop := waits_retryLoop env hbase h (config.retries.toInt + 1).toNat 0 none
  simp only [Nat.zero_add] at hloop
  exact hloop

/-- The cpu pool's configuration, at the last attempt that is waited after. -/
theorem backoff_exact_of_cpu_pool :
    let config : RetryConfig :=
      { maxRetries := 3, baseDelay := 100000000, maxDelay := 2000000000 }
    0 ≤ config.baseDelay ∧ (BackoffExact config 2 ↔ Representable config 2) ∧
      BackoffExact config 2 := by
  intro config
  have hiff := backoff_exact_iff config 2 (by decide)
  exact ⟨by decide, hiff, hiff.mpr (by decide)⟩

/-- Without a `BaseDelay` the first retry panics. -/
theorem backoff_panics :
    let config : RetryConfig := {}
    config.backoff 0 0 = .error "invalid argument to Int63n" ∧ ¬ BackoffExact config 0 := by
  intro config
  have hpanics : config.backoff 0 0 = .error "invalid argument to Int63n" := by decide +kernel
  refine ⟨hpanics, fun h => ?_⟩
  obtain ⟨wait, jitter, hbackoff, -⟩ := h.wait 0
  rw [hpanics] at hbackoff
  cases hbackoff

end RetryConfig

end BulkTraffic.GoEngine
