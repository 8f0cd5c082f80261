import BulkTraffic.Lib.JsArray
import BulkTraffic.Lib.Sieve
import BulkTraffic.Js.Value

/-!
# `findPrimes` in the two engines

`processors.cpu.findPrimes` of the Node worker and `findPrimes` of the Go engine, written
out separately, and the theorem that they compute the same, correct answer
(`findPrimes_correct`).

The Node array grows when an index behind its end is written and has holes that read as
`undefined`; the Go slice panics outside its bounds. Neither happens to matter: the Node
loops read below `max` only, and the Go loops never leave the slice.
-/

namespace BulkTraffic.Workload

open Lib Js

/-- What `findPrimes` reports. -/
structure Primes where
  /-- How many primes there are. -/
  primeCount : ℕ
  /-- The first ten, or all. -/
  first10Primes : List ℕ
  /-- The last ten, or all. -/
  last10Primes : List ℕ
  deriving DecidableEq

/-- The second loop puts a prime in: the variables `count`, `first10` and `last10`. -/
def Primes.push (found : Primes) (i : ℕ) : Primes where
  primeCount := found.primeCount + 1
  first10Primes := keepFirst 10 found.first10Primes i
  last10Primes := slide 10 found.last10Primes i

/-- Before the second loop. -/
def Primes.none : Primes := ⟨0, [], []⟩

/-- The right answer: the primes below `n`, counted, and the first and last ten of them. -/
def Primes.below (n : ℕ) : Primes :=
  let primes := (List.range n).filter fun p => decide p.Prime
  ⟨primes.length, primes.take 10, lastFew 10 primes⟩

theorem Primes.foldl_push (l : List ℕ) :
    l.foldl Primes.push Primes.none = ⟨l.length, l.take 10, lastFew 10 l⟩ := by
  have key : ∀ (l : List ℕ) (found : Primes), l.foldl Primes.push found =
      ⟨found.primeCount + l.length, l.foldl (keepFirst 10) found.first10Primes,
        l.foldl (slide 10) found.last10Primes⟩ := by
    intro l
    induction l with
    | nil => intro found; rfl
    | cons i l ih =>
      intro found
      rw [List.foldl_cons, ih]
      simp only [Primes.push, List.length_cons, List.foldl_cons, Primes.mk.injEq, and_true]
      omega
  rw [key, ← foldl_keepFirst 10 l, ← foldl_slide (by omega : 0 < 10) l]
  simp [Primes.none]

/-- The second loop over flags that are right finds the right answer. -/
theorem Primes.foldl_flags {n : ℕ} {flag : ℕ → Bool}
    (h : ∀ i, 2 ≤ i → i < n → (flag i = true ↔ i.Prime)) :
    (multiplesFrom 2 1 n).foldl (fun found i => if flag i then found.push i else found)
      Primes.none = Primes.below n := by
  have hfilter : (List.range n).filter (fun p => decide p.Prime)
      = (multiplesFrom 2 1 n).filter flag := by
    rw [multiplesFrom_two_one]
    rcases Nat.lt_or_ge n 2 with hlt | hge
    · obtain rfl | rfl : n = 0 ∨ n = 1 := by omega
      · rfl
      · show (List.range 1).filter _ = []
        decide
    · obtain ⟨m, rfl⟩ := Nat.exists_eq_add_of_le hge
      rw [List.range_eq_range', List.range'_append_1.symm, List.filter_append]
      have hsmall : (List.range' 0 2).filter (fun p => decide p.Prime) = [] := by decide
      rw [hsmall, List.nil_append, Nat.zero_add, Nat.add_sub_cancel_left]
      refine List.filter_congr fun i hi => ?_
      obtain ⟨h2, hn⟩ := List.mem_range'_1.mp hi
      rw [Bool.eq_iff_iff, decide_eq_true_iff, h i h2 hn]
  show _ = (⟨_, _, _⟩ : Primes)
  rw [hfilter, ← Primes.foldl_push, List.foldl_filter]

/-! ### Node -/

namespace Node

/-- The array `sieve`: `undefined` where it has a hole. -/
abbrev Sieve := List (Option Bool)

/-- The boolean `if (!sieve[i])` tests. -/
def flag (sieve : Sieve) (i : ℕ) : Bool := JsArray.read none sieve i == some true

/-- `sieve[i] = false`. -/
def clear (sieve : Sieve) (i : ℕ) : Sieve := JsArray.write none sieve i (some false)

/-- The array as a storage of flags. -/
def flags : Flags Sieve where
  read := flag
  clear := clear
  read_clear a i j := by
    unfold flag clear
    rw [JsArray.read_write]
    by_cases hij : i = j <;> simp [hij]

/-- `new Array(max).fill(true)` with the first two entries put to `false`. -/
def newSieve (max : ℕ) : Sieve := clear (clear (List.replicate max (some true)) 0) 1

/-- The array after the first loop. -/
def sieve (max : ℕ) : Sieve :=
  (rounds max).foldl (fun sieve i =>
    if !flag sieve i then sieve
    else (multiplesFrom (i * i) i max).foldl clear sieve) (newSieve max)

/-- `processors.cpu.findPrimes(params)`. -/
def findPrimes (params : Record) : Except String Primes :=
  let max := Number.min ((params.field "max").orElse (.ofInt 1000000)).asNumber (.finite 2000000)
  match max.arrayLength? with
  | none => .error "Invalid array length"
  | some max =>
    .ok ((multiplesFrom 2 1 max).foldl (fun found i =>
      if !flag (sieve max) i then found else found.push i) Primes.none)

theorem sieve_eq (max : ℕ) : sieve max = flags.sieve max (newSieve max) := by
  show (rounds max).foldl _ _ = (rounds max).foldl (flags.round max) _
  congr 1
  funext a i
  show _ = if flag a i then (multiplesFrom (i * i) i max).foldl clear a else a
  cases flag a i <;> rfl

theorem flag_newSieve {max i : ℕ} (h : i < max) :
    flag (newSieve max) i = true ↔ 2 ≤ i := by
  have hread : flag (List.replicate max (some true)) i = true := by
    simp [flag, JsArray.read, h]
  show flags.read (flags.clear (flags.clear _ 0) 1) i = true ↔ _
  rw [flags.read_clear, flags.read_clear]
  show (flag _ i && _ && _) = true ↔ _
  rw [hread]
  simp
  omega

/-- The flags that are up after the first loop are the primes below `max`. -/
theorem flag_sieve {max i : ℕ} (h : i < max) : flag (sieve max) i = true ↔ i.Prime := by
  rw [sieve_eq]
  rcases Nat.lt_or_ge i 2 with hlt | hge
  · constructor
    · intro hup
      have := (flag_newSieve h).mp (flags.read_of_read_sieve hup)
      omega
    · intro hprime
      exact absurd hprime.two_le (by omega)
  · exact flags.read_sieve (fun j hj hjn => (flag_newSieve hjn).mpr hj) hge h

end Node

/-! ### Go -/

namespace Go

/-- Why `findPrimes` returns no result. -/
inductive Failure where
  /-- `ctx.Err()`. -/
  | ctx
  /-- An index or a length out of range. -/
  | panic
  deriving DecidableEq

/-- `sieve[i] = false`. -/
def clear (sieve : List Bool) (i : ℕ) : Except Failure (List Bool) :=
  if i < sieve.length then .ok (sieve.set i false) else .error .panic

/-- `sieve[i]`. -/
def load (sieve : List Bool) (i : ℕ) : Except Failure Bool :=
  match sieve[i]? with
  | some b => .ok b
  | none => .error .panic

/-- `make([]bool, max)` with every entry put to `true`, and the first two to `false`. -/
def newSieve (max : ℤ) : Except Failure (List Bool) := do
  if max < 0 then throw .panic
  let sieve := List.replicate max.toNat true
  let sieve ← if 0 < max then clear sieve 0 else pure sieve
  if 1 < max then clear sieve 1 else pure sieve

/-- One round of the first loop. `done i` says that the context is done when the round of `i`
begins. -/
def round (done : ℕ → Bool) (max : ℕ) (sieve : List Bool) (i : ℕ) : Except Failure (List Bool) := do
  if done i then throw .ctx
  if !(← load sieve i) then return sieve
  (multiplesFrom (i * i) i max).foldlM clear sieve

/-- The slice after the first loop. -/
def sieve (done : ℕ → Bool) (max : ℤ) : Except Failure (List Bool) := do
  (rounds max.toNat).foldlM (round done max.toNat) (← newSieve max)

/-- One round of the second loop. -/
def scan (sieve : List Bool) (found : Primes) (i : ℕ) : Except Failure Primes := do
  if !(← load sieve i) then return found
  return found.push i

/-- The map that is marshalled. -/
structure Result extends Primes where
  /-- `"task_id"`. -/
  task_id : String
  deriving DecidableEq

/-- `findPrimes(ctx, max, taskID)`. The values of `max`, `i` and `j` stay below `2 ^ 63`, so `int`
is modelled by integers. -/
def findPrimes (done : ℕ → Bool) (max : ℤ) (taskID : String) : Except Failure Result := do
  let max := if 2000000 < max then 2000000 else max
  let sieve ← sieve done max
  let found ← (multiplesFrom 2 1 max.toNat).foldlM (scan sieve) Primes.none
  return { found with task_id := taskID }

/-- The slice as a storage of flags. -/
def flags : Flags (List Bool) where
  read sieve i := sieve.getD i false
  clear sieve i := sieve.set i false
  read_clear sieve i j := by
    by_cases hij : i = j
    · subst hij
      rw [List.getD_eq_getElem?_getD, List.getElem?_set_self']
      cases sieve[i]? <;> simp
    · simp [List.getD_eq_getElem?_getD, List.getElem?_set_ne hij, hij]

theorem clear_of_lt {sieve : List Bool} {i : ℕ} (h : i < sieve.length) :
    clear sieve i = .ok (flags.clear sieve i) := if_pos h

theorem load_of_lt {sieve : List Bool} {i : ℕ} (h : i < sieve.length) :
    load sieve i = .ok (flags.read sieve i) := by
  show (match sieve[i]? with | some b => _ | none => _) = Except.ok (sieve.getD i false)
  rw [List.getD_eq_getElem?_getD, List.getElem?_eq_getElem h]
  rfl

/-- The slice before the first loop. -/
def fresh (n : ℕ) : List Bool := flags.clear (flags.clear (List.replicate n true) 0) 1

@[simp] theorem length_fresh (n : ℕ) : (fresh n).length = n := by
  simp [fresh, flags]

theorem newSieve_natCast (n : ℕ) : newSieve n = .ok (fresh n) := by
  unfold newSieve fresh
  match n with
  | 0 => rfl
  | 1 => rfl
  | n + 2 =>
    have h₀ : ¬ ((n + 2 : ℕ) : ℤ) < 0 := by omega
    have h₁ : (0 : ℤ) < (n + 2 : ℕ) := by omega
    have h₂ : (1 : ℤ) < (n + 2 : ℕ) := by omega
    simp only [h₀, h₁, h₂, if_true, if_false, Int.toNat_natCast]
    rw [clear_of_lt (by simp)]
    show clear (flags.clear (List.replicate (n + 2) true) 0) 1 = _
    apply clear_of_lt
    show 1 < ((List.replicate (n + 2) true).set 0 false).length
    simp

theorem read_fresh {n i : ℕ} (h : i < n) : flags.read (fresh n) i = true ↔ 2 ≤ i := by
  have hread : flags.read (List.replicate n true) i = true := by
    simp [flags, List.getD_eq_getElem?_getD, h]
  unfold fresh
  rw [flags.read_clear, flags.read_clear, hread]
  simp
  omega

/-- A round that is not cancelled stays in the slice and is a round of the sieve. -/
theorem round_eq {done : ℕ → Bool} {n i : ℕ} {sieve : List Bool} (hlen : sieve.length = n)
    (hi : 2 ≤ i) (hin : i < n) (hdone : done i = false) :
    round done n sieve i = .ok (flags.round n sieve i) ∧ (flags.round n sieve i).length = n := by
  have hinner : (multiplesFrom (i * i) i n).foldlM clear sieve
      = .ok (flags.clearAll sieve (multiplesFrom (i * i) i n)) ∧
        (flags.clearAll sieve (multiplesFrom (i * i) i n)).length = n := by
    refine foldlM_eq_ok (fun sieve : List Bool => sieve.length = n) hlen fun sieve hlen j hj => ?_
    obtain ⟨hjn, -⟩ := (mem_multiplesFrom (by omega)).mp hj
    exact ⟨clear_of_lt (by omega), by simpa [flags] using hlen⟩
  unfold round Flags.round
  rw [if_neg (by simp [hdone]), load_of_lt (by omega)]
  cases hread : flags.read sieve i with
  | false => exact ⟨rfl, hlen⟩
  | true => exact hinner

theorem mem_rounds {n i : ℕ} (h : i ∈ rounds n) : 2 ≤ i ∧ i < n := by
  obtain ⟨len, heq, hin, -⟩ := rounds_eq_range' n
  rw [heq] at h
  obtain ⟨h2, hlt⟩ := List.mem_range'_1.mp h
  have := hin i h2 hlt
  have := Nat.le_mul_of_pos_left i (by omega : 0 < i)
  exact ⟨h2, by omega⟩

/-- The first loop returns the context's error if the context is done when a round begins, and
the sieve otherwise. -/
theorem sieve_natCast (done : ℕ → Bool) (n : ℕ) :
    sieve done n = (if (rounds n).any done then .error .ctx else .ok (flags.sieve n (fresh n))) ∧
      (flags.sieve n (fresh n)).length = n := by
  have hrun : ∀ sieve : List Bool, sieve.length = n → ∀ i ∈ rounds n, done i = false →
      round done n sieve i = .ok (flags.round n sieve i) ∧
        (flags.round n sieve i).length = n := by
    intro sieve hlen i hi hdone
    obtain ⟨h2, hin⟩ := mem_rounds hi
    exact round_eq hlen h2 hin hdone
  have hlen : (flags.sieve n (fresh n)).length = n := by
    have hstep : ∀ sieve : List Bool, sieve.length = n → ∀ i ∈ rounds n,
        round (fun _ => false) n sieve i = .ok (flags.round n sieve i) ∧
          (flags.round n sieve i).length = n := by
      intro sieve hlen i hi
      obtain ⟨h2, hin⟩ := mem_rounds hi
      exact round_eq hlen h2 hin rfl
    exact (foldlM_eq_ok (fun sieve : List Bool => sieve.length = n) (length_fresh n) hstep).2
  refine ⟨?_, hlen⟩
  unfold sieve
  rw [newSieve_natCast, Int.toNat_natCast]
  show (rounds n).foldlM (round done n) (fresh n) = _
  by_cases hdone : (rounds n).any done = true
  · rw [if_pos hdone]
    obtain ⟨i, hi, hdone⟩ := List.any_eq_true.mp hdone
    refine foldlM_eq_error (fun sieve : List Bool => sieve.length = n) (length_fresh n) ⟨i, hi, hdone⟩
      (fun sieve i hi hdone => ?_) fun sieve hlen i hi hdone => ⟨_, hrun sieve hlen i hi hdone⟩
    unfold round
    rw [if_pos hdone]
    rfl
  · rw [if_neg hdone]
    refine (foldlM_eq_ok (fun sieve : List Bool => sieve.length = n) (length_fresh n)
      fun sieve hlen i hi => hrun sieve hlen i hi ?_).1
    have := List.any_eq_false.mp (Bool.not_eq_true _ ▸ hdone) i hi
    simpa using this

/-- The flags that are up after the first loop are the primes below `n`. -/
theorem read_sieve {n i : ℕ} (h : i < n) :
    flags.read (flags.sieve n (fresh n)) i = true ↔ i.Prime := by
  rcases Nat.lt_or_ge i 2 with hlt | hge
  · constructor
    · intro hup
      have := (read_fresh h).mp (flags.read_of_read_sieve hup)
      omega
    · intro hprime
      exact absurd hprime.two_le (by omega)
  · exact flags.read_sieve (fun j hj hjn => (read_fresh hjn).mpr hj) hge h

/-- The second loop never leaves the slice. -/
theorem foldlM_scan {n : ℕ} {sieve : List Bool} (hlen : sieve.length = n) :
    (multiplesFrom 2 1 n).foldlM (scan sieve) Primes.none
      = .ok ((multiplesFrom 2 1 n).foldl
          (fun found i => if flags.read sieve i then found.push i else found) Primes.none) := by
  refine (foldlM_eq_ok (fun _ => True) trivial fun found _ i hi => ?_).1
  obtain ⟨hin, -⟩ := (mem_multiplesFrom (by omega)).mp hi
  unfold scan
  rw [load_of_lt (by omega)]
  cases flags.read sieve i <;> exact ⟨rfl, trivial⟩

/-- The Go engine's answer: the context's error if the context is done when a round begins,
and the right answer otherwise. -/
theorem findPrimes_natCast (done : ℕ → Bool) (max : ℕ) (taskID : String) :
    findPrimes done max taskID = (if (rounds (min max 2000000)).any done then .error .ctx
      else .ok { Primes.below (min max 2000000) with task_id := taskID }) := by
  have hmax : (if (2000000 : ℤ) < max then 2000000 else (max : ℤ)) = (min max 2000000 : ℕ) := by
    split <;> omega
  obtain ⟨hsieve, hlen⟩ := sieve_natCast done (min max 2000000)
  unfold findPrimes
  simp only [hmax, hsieve, Int.toNat_natCast]
  by_cases hdone : (rounds (min max 2000000)).any done = true
  · rw [if_pos hdone, if_pos hdone]
    rfl
  · rw [if_neg hdone, if_neg hdone]
    show ((multiplesFrom 2 1 _).foldlM (scan _) Primes.none >>= _) = _
    rw [foldlM_scan hlen, Primes.foldl_flags fun i _ hi => read_sieve hi]
    rfl

end Go

/-! ### The two together -/

theorem Node.findPrimes_natCast {params : Record} {max : ℕ} (hmax : 1 ≤ max)
    (hparams : params.field "max" = .num (.finite max)) :
    Node.findPrimes params = .ok (Primes.below (min max 2000000)) := by
  have htruthy : (JsValue.num (.finite max)).truthy = true := by
    have : (max : ℚ) ≠ 0 := by exact_mod_cast (by omega : max ≠ 0)
    simp [JsValue.truthy, this]
  have hmin : Number.min (.finite max) (.finite 2000000) = .finite (min max 2000000 : ℕ) := by
    rcases Nat.le_total max 2000000 with hle | hge
    · have : (max : ℚ) ≤ 2000000 := by exact_mod_cast hle
      simp only [Number.min, if_pos this, Nat.min_eq_left hle]
    · rw [Nat.min_eq_right hge]
      rcases Nat.eq_or_lt_of_le hge with rfl | hlt
      · rfl
      · have : ¬ (max : ℚ) ≤ 2000000 := by
          rw [not_le]
          exact_mod_cast hlt
        simp only [Number.min, if_neg this]
        rfl
  have hlength : Number.arrayLength? (.finite (min max 2000000 : ℕ)) = some (min max 2000000) := by
    have hden : ((min max 2000000 : ℕ) : ℚ).den = 1 := Rat.den_natCast _
    have hnum : ((min max 2000000 : ℕ) : ℚ).num = (min max 2000000 : ℕ) := Rat.num_natCast _
    simp only [Number.arrayLength?, Number.toInteger?, if_pos hden, hnum]
    rw [if_pos (by omega), Int.toNat_natCast]
  unfold Node.findPrimes
  rw [hparams, JsValue.orElse, if_pos htruthy]
  simp only [JsValue.asNumber, hmin, hlength]
  rw [← Primes.foldl_flags fun i _ hi => Node.flag_sieve hi]
  generalize min max 2000000 = n
  have hbranch : (fun found i => if !Node.flag (Node.sieve n) i then found else found.push i)
      = fun (found : Primes) i => if Node.flag (Node.sieve n) i then found.push i else found := by
    funext found i
    cases Node.flag (Node.sieve n) i <;> rfl
  rw [hbranch]

/-- **`findPrimes` is right in both engines**: for every `max` from `1` on, with
`n = min(max, 2000000)`, the Node worker and the Go engine (unless its context is done when a
round begins) report the number of primes below `n`, the first ten and the last ten of them,
and in both sieves the flags that are up below `n` are the primes. -/
theorem findPrimes_correct (params : Record) (max : ℕ) (done : ℕ → Bool) (taskID : String)
    (hmax : 1 ≤ max) (hparams : params.field "max" = .num (.finite max)) :
    let n := min max 2000000
    Node.findPrimes params = .ok (Primes.below n) ∧
      Go.findPrimes done max taskID
        = (if (rounds n).any done then .error .ctx
          else .ok { Primes.below n with task_id := taskID }) ∧
      (∀ i < n, Node.flag (Node.sieve n) i = true ↔ i.Prime) ∧
      ((rounds n).any done = false → ∃ sieve, Go.sieve done n = .ok sieve ∧
        ∀ i < n, Go.load sieve i = .ok (decide i.Prime)) := by
  intro n
  refine ⟨Node.findPrimes_natCast hmax hparams, Go.findPrimes_natCast done max taskID,
    fun i hi => Node.flag_sieve hi, fun hdone => ?_⟩
  obtain ⟨hsieve, hlen⟩ := Go.sieve_natCast done n
  refine ⟨_, by rw [hsieve, if_neg (by simp [hdone])], fun i hi => ?_⟩
  rw [Go.load_of_lt (by omega)]
  congr 1
  rw [Bool.eq_iff_iff, decide_eq_true_iff, Go.read_sieve hi]

/-- Below `30` there are ten primes. -/
theorem findPrimes_thirty :
    Node.findPrimes [("max", .num (.finite (30 : ℕ)))]
      = .ok ⟨10, [2, 3, 5, 7, 11, 13, 17, 19, 23, 29], [2, 3, 5, 7, 11, 13, 17, 19, 23, 29]⟩ ∧
    Go.findPrimes (fun _ => false) (30 : ℕ) "task-1"
      = .ok ⟨⟨10, [2, 3, 5, 7, 11, 13, 17, 19, 23, 29], [2, 3, 5, 7, 11, 13, 17, 19, 23, 29]⟩,
          "task-1"⟩ := by
  have hright : Primes.below 30
      = ⟨10, [2, 3, 5, 7, 11, 13, 17, 19, 23, 29], [2, 3, 5, 7, 11, 13, 17, 19, 23, 29]⟩ := by
    decide
  obtain ⟨hnode, hgo, -⟩ := findPrimes_correct [("max", .num (.finite (30 : ℕ)))] 30
    (fun _ => false) "task-1" (by decide) rfl
  rw [hnode, hgo]
  exact ⟨congrArg _ hright, by rw [if_neg (by simp)]; exact congrArg _ (by rw [← hright]; rfl)⟩

end BulkTraffic.Workload
