import Mathlib.Data.Nat.Prime.Basic
import Mathlib.Data.List.Range
import Mathlib.Tactic.Ring

/-!
# The sieve of Eratosthenes

Counting loops as lists of indices, the sieve over any storage of flags that can be read
and cleared by index, and the two accumulators of a scan: the first few items, and a
window that keeps the last few.

* `mem_multiplesFrom`, `rounds_eq_range'`: what the two loops of the sieve run through.
* `Flags.Sifted`: after the rounds below `d`, a flag at `j` is up exactly when every prime
  below `d` that divides `j` has its square above `j`. `Flags.sifted_round` is the step and
  `Flags.read_sieve` the result: the flags that are up are the primes.
* `foldl_keepFirst`, `foldl_slide`: the accumulators hold `take k` and the last `k`.
-/

namespace BulkTraffic.Lib

/-! ### Counting loops -/

/-- The indices of `for (j = start; j < n; j += step)`. -/
def multiplesFrom (start step n : ℕ) : List ℕ :=
  (List.range' start n step).takeWhile fun j => decide (j < n)

/-- The indices of `for (i = 2; i * i < n; i++)`. -/
def rounds (n : ℕ) : List ℕ := (List.range' 2 n).takeWhile fun i => decide (i * i < n)

/-- A counting loop runs through an interval, up to the first index that fails the test. -/
theorem takeWhile_range' (test : ℕ → Bool) (start fuel : ℕ) :
    ∃ len, (List.range' start fuel).takeWhile test = List.range' start len ∧ len ≤ fuel ∧
      (∀ i, start ≤ i → i < start + len → test i) ∧ (len < fuel → ¬ test (start + len)) := by
  induction fuel generalizing start with
  | zero => exact ⟨0, rfl, le_rfl, fun i _ _ => by omega, fun h => absurd h (by omega)⟩
  | succ fuel ih =>
    rw [List.range'_succ]
    by_cases htest : test start
    · obtain ⟨len, heq, hle, hall, hstop⟩ := ih (start + 1)
      refine ⟨len + 1, ?_, by omega, ?_, ?_⟩
      · rw [List.takeWhile_cons_of_pos htest, heq, List.range'_succ]
      · intro i hi hlt
        rcases Nat.eq_or_lt_of_le hi with rfl | hi
        · exact htest
        · exact hall i hi (by omega)
      · intro hlt
        have := hstop (by omega)
        rwa [show start + 1 + len = start + (len + 1) by omega] at this
    · refine ⟨0, ?_, by omega, fun i _ _ => by omega, fun _ => by simpa using htest⟩
      rw [List.takeWhile_cons_of_neg htest]
      rfl

/-- The outer loop runs from `2` up to the first `d` whose square is not below `n`. -/
theorem rounds_eq_range' (n : ℕ) :
    ∃ len, rounds n = List.range' 2 len ∧ (∀ i, 2 ≤ i → i < 2 + len → i * i < n) ∧
      n ≤ (2 + len) * (2 + len) := by
  obtain ⟨len, heq, hle, hall, hstop⟩ := takeWhile_range' (fun i => decide (i * i < n)) 2 n
  refine ⟨len, heq, fun i hi hlt => by simpa using hall i hi hlt, ?_⟩
  rcases Nat.lt_or_ge len n with hlt | hge
  · simpa using hstop hlt
  · calc n ≤ (2 + len) * 1 := by omega
      _ ≤ (2 + len) * (2 + len) := Nat.mul_le_mul_left _ (by omega)

theorem mem_takeWhile_range' {start step n fuel j : ℕ} :
    j ∈ (List.range' start fuel step).takeWhile (fun j => decide (j < n)) ↔
      j < n ∧ ∃ k < fuel, j = start + step * k := by
  induction fuel generalizing start with
  | zero => simp
  | succ fuel ih =>
    rw [List.range'_succ]
    by_cases hlt : start < n
    · rw [List.takeWhile_cons_of_pos (by simpa using hlt), List.mem_cons, ih]
      constructor
      · rintro (rfl | ⟨hj, k, hk, rfl⟩)
        · exact ⟨hlt, 0, by omega, by omega⟩
        · exact ⟨hj, k + 1, by omega, by ring⟩
      · rintro ⟨hj, k, hk, rfl⟩
        cases k with
        | zero => exact .inl (by omega)
        | succ k => exact .inr ⟨hj, k, by omega, by ring⟩
    · rw [List.takeWhile_cons_of_neg (by simpa using hlt)]
      constructor
      · intro h
        cases h
      · rintro ⟨hj, k, hk, rfl⟩
        exact absurd hj (by omega)

/-- The inner loop runs through `start`, `start + step`, … as far as they are below `n`. -/
theorem mem_multiplesFrom {start step n j : ℕ} (hstep : 0 < step) :
    j ∈ multiplesFrom start step n ↔ j < n ∧ ∃ k, j = start + step * k := by
  show j ∈ (List.range' start n step).takeWhile _ ↔ _
  rw [mem_takeWhile_range']
  constructor
  · rintro ⟨hj, k, -, rfl⟩
    exact ⟨hj, k, rfl⟩
  · rintro ⟨hj, k, rfl⟩
    have hk : k ≤ step * k := Nat.le_mul_of_pos_left k hstep
    exact ⟨hj, k, by omega, rfl⟩

/-- The loop over `2`, `3`, …, `n - 1`. -/
theorem multiplesFrom_two_one (n : ℕ) : multiplesFrom 2 1 n = List.range' 2 (n - 2) := by
  obtain ⟨len, heq, hle, hall, hstop⟩ := takeWhile_range' (fun j => decide (j < n)) 2 n
  have hlen : len = n - 2 := by
    rcases Nat.eq_zero_or_pos len with hzero | hpos
    · rcases Nat.eq_zero_or_pos n with hn | hn
      · omega
      · have := hstop (by omega)
        simp at this
        omega
    · have h₁ := hall (2 + len - 1) (by omega) (by omega)
      simp at h₁
      have h₂ := hstop (by omega)
      simp at h₂
      omega
  show (List.range' 2 n 1).takeWhile _ = _
  rw [heq, hlen]

/-! ### Clearing the multiples -/

/-- A storage of flags, read and cleared by index. -/
structure Flags (A : Type*) where
  /-- The flag at an index. -/
  read : A → ℕ → Bool
  /-- Put the flag at an index down. -/
  clear : A → ℕ → A
  /-- Clearing puts one flag down and leaves the others. -/
  read_clear : ∀ a i j, read (clear a i) j = (read a j && !decide (i = j))

namespace Flags

variable {A : Type*} (F : Flags A)

/-- Clear the flags at some indices. -/
def clearAll (a : A) (indices : List ℕ) : A := indices.foldl F.clear a

/-- One round of the sieve: the multiples of `i` from `i * i` on go down, unless `i` is
down already. -/
def round (n : ℕ) (a : A) (i : ℕ) : A :=
  if F.read a i then F.clearAll a (multiplesFrom (i * i) i n) else a

/-- The sieve: the rounds from `2` as long as `i * i < n`. -/
def sieve (n : ℕ) (a : A) : A := (rounds n).foldl (F.round n) a

theorem read_clearAll (a : A) (indices : List ℕ) (j : ℕ) :
    F.read (F.clearAll a indices) j = true ↔ F.read a j = true ∧ j ∉ indices := by
  induction indices generalizing a with
  | nil => simp [clearAll]
  | cons i indices ih =>
    show F.read (F.clearAll (F.clear a i) indices) j = true ↔ _
    rw [ih, F.read_clear, List.mem_cons, Bool.and_eq_true, Bool.not_eq_true', decide_eq_false_iff_not]
    tauto

/-- The sieve only puts flags down. -/
theorem read_of_read_sieve {n : ℕ} {a : A} {j : ℕ} (h : F.read (F.sieve n a) j = true) :
    F.read a j = true := by
  unfold sieve at h
  revert h
  generalize Lib.rounds n = indices
  intro h
  induction indices generalizing a with
  | nil => exact h
  | cons i indices ih =>
    have := ih h
    unfold round at this
    split at this
    · exact ((F.read_clearAll a _ j).mp this).1
    · exact this

/-- After the rounds below `d`: the flag at `j` is up exactly when every prime below `d`
that divides `j` has its square above `j`. -/
def Sifted (n d : ℕ) (a : A) : Prop :=
  ∀ j, 2 ≤ j → j < n →
    (F.read a j = true ↔ ∀ p, p.Prime → p < d → p ∣ j → j < p * p)

/-- Before the first round no prime counts, so every flag must be up. -/
theorem sifted_two {n : ℕ} {a : A} (h : ∀ j, 2 ≤ j → j < n → F.read a j = true) :
    F.Sifted n 2 a := by
  intro j hj hn
  refine ⟨fun _ p hp hlt _ => absurd hp.two_le (by omega), fun _ => h j hj hn⟩

/-- A number below `d * d` is prime when its prime factors below `d` have squares above it: a
composite number has a prime factor whose square is not above it. -/
theorem prime_iff_forall_lt_sq {d j : ℕ} (hj : 2 ≤ j) (hd : j < d * d) :
    (∀ p, p.Prime → p < d → p ∣ j → j < p * p) ↔ j.Prime := by
  constructor
  · intro hall
    by_contra hcomposite
    have hp : j.minFac.Prime := Nat.minFac_prime (by omega)
    have hsq : j.minFac * j.minFac ≤ j := by
      have := Nat.minFac_sq_le_self (by omega) hcomposite
      rwa [Nat.pow_two] at this
    have hlt : j.minFac < d := by
      by_contra hge
      have := Nat.mul_le_mul (Nat.le_of_not_lt hge) (Nat.le_of_not_lt hge)
      omega
    have := hall _ hp hlt (Nat.minFac_dvd j)
    omega
  · intro hprime p hp hlt hdvd
    obtain rfl : p = j := (Nat.prime_dvd_prime_iff_eq hp hprime).mp hdvd
    calc p < p * 2 := by omega
      _ ≤ p * p := Nat.mul_le_mul_left p hp.two_le

/-- The flag at `d` in its own round tells whether `d` is prime. -/
theorem Sifted.read_self {F : Flags A} {n d : ℕ} {a : A} (h : F.Sifted n d a) (hd : 2 ≤ d)
    (hn : d < n) : F.read a d = true ↔ d.Prime := by
  have hsq : d < d * d := by
    calc d < d * 2 := by omega
      _ ≤ d * d := Nat.mul_le_mul_left d hd
  rw [h d hd hn, prime_iff_forall_lt_sq hd hsq]

/-- A number below `n` is on the inner loop of `d` exactly when `d` divides it and `d * d` is
not above it. -/
theorem mem_multiplesFrom_square {n d j : ℕ} (hd : 0 < d) :
    j ∈ multiplesFrom (d * d) d n ↔ j < n ∧ d ∣ j ∧ d * d ≤ j := by
  rw [mem_multiplesFrom hd]
  constructor
  · rintro ⟨hj, k, rfl⟩
    exact ⟨hj, ⟨d + k, by ring⟩, by omega⟩
  · rintro ⟨hj, ⟨m, rfl⟩, hle⟩
    have hm : d ≤ m := Nat.le_of_mul_le_mul_left hle hd
    obtain ⟨k, rfl⟩ := Nat.exists_eq_add_of_le hm
    exact ⟨hj, k, by ring⟩

/-- **One round** moves the invariant on, whether `d` is prime or not. -/
theorem Sifted.round {F : Flags A} {n d : ℕ} {a : A} (h : F.Sifted n d a) (hd : 2 ≤ d)
    (hn : d < n) : F.Sifted n (d + 1) (F.round n a d) := by
  intro j hj hjn
  have hself := h.read_self hd hn
  unfold Flags.round
  by_cases hread : F.read a d = true
  · have hprime : d.Prime := hself.mp hread
    rw [if_pos hread, read_clearAll, h j hj hjn, mem_multiplesFrom_square (by omega)]
    constructor
    · rintro ⟨hall, hnot⟩ p hp hlt hdvd
      rcases Nat.lt_succ_iff_lt_or_eq.mp hlt with hlt | rfl
      · exact hall p hp hlt hdvd
      · by_contra hge
        exact hnot ⟨hjn, hdvd, by omega⟩
    · intro hall
      refine ⟨fun p hp hlt => hall p hp (by omega), ?_⟩
      rintro ⟨-, hdvd, hle⟩
      have := hall d hprime (by omega) hdvd
      omega
  · rw [if_neg hread, h j hj hjn]
    constructor
    · intro hall p hp hlt hdvd
      rcases Nat.lt_succ_iff_lt_or_eq.mp hlt with hlt | rfl
      · exact hall p hp hlt hdvd
      · exact absurd (hself.mpr hp) hread
    · intro hall p hp hlt
      exact hall p hp (by omega)

/-- The rounds of an interval, one after the other. -/
theorem Sifted.rounds {F : Flags A} {n d len : ℕ} {a : A} (h : F.Sifted n d a) (hd : 2 ≤ d)
    (hn : ∀ i, d ≤ i → i < d + len → i < n) :
    F.Sifted n (d + len) ((List.range' d len).foldl (F.round n) a) := by
  induction len generalizing d a with
  | zero => exact h
  | succ len ih =>
    rw [List.range'_succ, List.foldl_cons, show d + (len + 1) = d + 1 + len by omega]
    refine ih (h.round hd (hn d le_rfl (by omega))) (by omega) fun i hi hlt => ?_
    exact hn i (by omega) (by omega)

/-- **The sieve marks the primes**: started on flags that are all up, it leaves exactly the
primes below `n` up. -/
theorem read_sieve {n : ℕ} {a : A} (h : ∀ j, 2 ≤ j → j < n → F.read a j = true) {j : ℕ}
    (hj : 2 ≤ j) (hn : j < n) : F.read (F.sieve n a) j = true ↔ j.Prime := by
  obtain ⟨len, heq, hin, hout⟩ := rounds_eq_range' n
  have hlast : F.Sifted n (2 + len) (F.sieve n a) := by
    show F.Sifted n (2 + len) ((Lib.rounds n).foldl (F.round n) a)
    rw [heq]
    refine (F.sifted_two h).rounds le_rfl fun i hi hlt => ?_
    have := hin i hi hlt
    have := Nat.le_mul_of_pos_left i (by omega : 0 < i)
    omega
  rw [hlast j hj hn, prime_iff_forall_lt_sq hj (by omega)]

end Flags

/-! ### The first few and the last few -/

section Accumulators

variable {α : Type*} (k : ℕ)

/-- Keep an item if there are fewer than `k` yet. -/
def keepFirst (first : List α) (a : α) : List α :=
  if first.length < k then first ++ [a] else first

/-- Put an item in at the back of a window of `k`, taking the front one out when it is full. -/
def slide (last : List α) (a : α) : List α :=
  (if last.length = k then last.tail else last) ++ [a]

/-- The last `k` of a list, or all of it. -/
def lastFew (l : List α) : List α := l.drop (l.length - k)

theorem foldl_keepFirst (l : List α) : l.foldl (keepFirst k) [] = l.take k := by
  induction l using List.reverseRecOn with
  | nil => simp
  | append_singleton l a ih =>
    rw [List.foldl_append, ih, List.foldl_cons, List.foldl_nil, keepFirst]
    by_cases hlt : l.length < k
    · rw [if_pos (by rw [List.length_take]; omega), List.take_of_length_le (by omega),
        List.take_of_length_le (by simp; omega)]
    · rw [if_neg (by rw [List.length_take]; omega), List.take_append_of_le_length (by omega)]

theorem foldl_slide {k : ℕ} (hk : 0 < k) (l : List α) : l.foldl (slide k) [] = lastFew k l := by
  induction l using List.reverseRecOn with
  | nil => simp [lastFew]
  | append_singleton l a ih =>
    rw [List.foldl_append, ih, List.foldl_cons, List.foldl_nil]
    unfold slide lastFew
    rw [List.length_append, List.length_singleton]
    by_cases hlt : l.length < k
    · rw [if_neg (by rw [List.length_drop]; omega), show l.length - k = 0 by omega,
        show l.length + 1 - k = 0 by omega]
      rfl
    · rw [if_pos (by rw [List.length_drop]; omega), List.tail_drop,
        show l.length - k + 1 = l.length + 1 - k by omega,
        List.drop_append_of_le_length (by omega)]

end Accumulators

/-! ### Folds that may fail -/

section Failing

variable {ε α β : Type*}

/-- A fold whose steps all succeed, as long as what they keep holds, is the plain fold. -/
theorem foldlM_eq_ok (P : α → Prop) {f : α → β → Except ε α} {g : α → β → α} {l : List β} {a : α}
    (ha : P a) (h : ∀ a, P a → ∀ b ∈ l, f a b = .ok (g a b) ∧ P (g a b)) :
    l.foldlM f a = .ok (l.foldl g a) ∧ P (l.foldl g a) := by
  induction l generalizing a with
  | nil => exact ⟨rfl, ha⟩
  | cons b l ih =>
    obtain ⟨hf, hg⟩ := h a ha b (List.mem_cons_self ..)
    rw [List.foldlM_cons, hf]
    exact ih hg fun a ha c hc => h a ha c (List.mem_cons_of_mem _ hc)

/-- A fold that stops with `e` at every item of a kind, and otherwise goes on, stops with `e`
when the list has such an item. -/
theorem foldlM_eq_error (P : α → Prop) {f : α → β → Except ε α} {stop : β → Bool} {e : ε}
    {l : List β} {a : α} (ha : P a) (hstop : ∃ b ∈ l, stop b = true)
    (herr : ∀ a, ∀ b ∈ l, stop b = true → f a b = .error e)
    (h : ∀ a, P a → ∀ b ∈ l, stop b = false → ∃ a', f a b = .ok a' ∧ P a') :
    l.foldlM f a = .error e := by
  induction l generalizing a with
  | nil =>
    obtain ⟨b, hb, -⟩ := hstop
    cases hb
  | cons b l ih =>
    rw [List.foldlM_cons]
    cases hb : stop b with
    | true =>
      rw [herr a b (List.mem_cons_self ..) hb]
      rfl
    | false =>
      obtain ⟨a', ha', hP⟩ := h a ha b (List.mem_cons_self ..) hb
      rw [ha']
      refine ih hP ?_ (fun a c hc => herr a c (List.mem_cons_of_mem _ hc))
        fun a ha c hc => h a ha c (List.mem_cons_of_mem _ hc)
      obtain ⟨c, hc, hstop⟩ := hstop
      rcases List.mem_cons.mp hc with rfl | hc
      · exact absurd hstop (by simp [hb])
      · exact ⟨c, hc, hstop⟩

end Failing

end BulkTraffic.Lib
