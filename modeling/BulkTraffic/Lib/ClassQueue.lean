import Mathlib.Data.List.TakeWhile

/-!
# Queues with classes

The elements of a queue have a class, or none. A scan goes through the queue from its front while
some of the classes are open: it drops the elements without a class, passes over those whose class
is closed, and takes the first whose class is open.

* `passed_append`: the queue is what the scan passes, what it takes, and what it does not reach.
* `ofClass_scan`: elements of one class leave the queue by being taken only, the front one first.

Scans follow each other, and what is taken may keep a place of its class, which is closed when
none is left. The elements taken are those that are `due`: an element is where fewer elements ahead
of it keep a place of its class than there are.

* `due_eq`: a scan takes the first element that is due, and the others stay due.
* `strays_succ`: of the elements without a class, `n` scans drop those with fewer than `n` due
  elements ahead of them.
-/

namespace BulkTraffic.Lib.ClassQueue

variable {α κ : Type*} (cls : α → Option κ) (isOpen : κ → Bool)

/-- The class of the element is open. -/
def ready (a : α) : Bool := (cls a).any isOpen

/-- The elements before the first whose class is open. -/
def passed (q : List α) : List α := q.takeWhile fun a => !ready cls isOpen a

/-- The element the scan takes: the first whose class is open. -/
def taken (q : List α) : Option α := q.find? (ready cls isOpen)

/-- The elements behind the one taken. -/
def unreached (q : List α) : List α := q.drop ((passed cls isOpen q).length + 1)

/-- The elements the scan drops: those without a class, of the ones it passes. -/
def dropped (q : List α) : List α := (passed cls isOpen q).filter fun a => (cls a).isNone

/-- The queue after the scan. -/
def left (q : List α) : List α :=
  (passed cls isOpen q).filter (fun a => (cls a).isSome) ++ unreached cls isOpen q

/-! ### The rounds of a scan -/

section Rounds

variable {cls isOpen} {a : α} (q : List α)

theorem passed_cons_of_ready (h : ready cls isOpen a = true) : passed cls isOpen (a :: q) = [] := by
  simp [passed, h]

theorem passed_cons_of_not_ready (h : ready cls isOpen a = false) :
    passed cls isOpen (a :: q) = a :: passed cls isOpen q := by
  simp [passed, h]

theorem taken_cons_of_ready (h : ready cls isOpen a = true) : taken cls isOpen (a :: q) = some a :=
  List.find?_cons_of_pos h

theorem taken_cons_of_not_ready (h : ready cls isOpen a = false) :
    taken cls isOpen (a :: q) = taken cls isOpen q :=
  List.find?_cons_of_neg (by simp [h])

theorem dropped_cons_of_ready (h : ready cls isOpen a = true) : dropped cls isOpen (a :: q) = [] := by
  rw [dropped, passed_cons_of_ready q h, List.filter_nil]

theorem left_cons_of_ready (h : ready cls isOpen a = true) : left cls isOpen (a :: q) = q := by
  simp [left, unreached, passed_cons_of_ready q h]

theorem unreached_cons_of_not_ready (h : ready cls isOpen a = false) :
    unreached cls isOpen (a :: q) = unreached cls isOpen q := by
  simp [unreached, passed_cons_of_not_ready q h]

/-- An element without a class is dropped. -/
theorem ready_of_none (h : cls a = none) : ready cls isOpen a = false := by
  simp [ready, h]

theorem ready_iff : ready cls isOpen a = true ↔ ∃ k, cls a = some k ∧ isOpen k = true := by
  rw [ready, Option.any_eq_true]

theorem ready_of_some {k : κ} (h : cls a = some k) : ready cls isOpen a = isOpen k := by
  simp [ready, h]

theorem dropped_cons_of_none (h : cls a = none) :
    dropped cls isOpen (a :: q) = a :: dropped cls isOpen q := by
  simp [dropped, passed_cons_of_not_ready q (ready_of_none h), h]

theorem left_cons_of_none (h : cls a = none) : left cls isOpen (a :: q) = left cls isOpen q := by
  have hready : ready cls isOpen a = false := ready_of_none h
  simp [left, passed_cons_of_not_ready q hready, unreached_cons_of_not_ready q hready, h]

theorem dropped_cons_of_closed {k : κ} (h : cls a = some k) (hk : isOpen k = false) :
    dropped cls isOpen (a :: q) = dropped cls isOpen q := by
  simp [dropped, passed_cons_of_not_ready q ((ready_of_some h).trans hk), h]

theorem left_cons_of_closed {k : κ} (h : cls a = some k) (hk : isOpen k = false) :
    left cls isOpen (a :: q) = a :: left cls isOpen q := by
  have hready : ready cls isOpen a = false := (ready_of_some h).trans hk
  simp [left, passed_cons_of_not_ready q hready, unreached_cons_of_not_ready q hready, h]

end Rounds

/-! ### What a scan does with the whole queue -/

/-- The queue in three parts. -/
theorem passed_append (q : List α) :
    passed cls isOpen q ++ (taken cls isOpen q).toList ++ unreached cls isOpen q = q := by
  induction q with
  | nil => rfl
  | cons a q ih =>
    cases h : ready cls isOpen a with
    | false =>
      rw [passed_cons_of_not_ready q h, taken_cons_of_not_ready q h, unreached_cons_of_not_ready q h,
        List.cons_append, List.cons_append, ih]
    | true =>
      simp [passed_cons_of_ready q h, taken_cons_of_ready q h, unreached]

theorem not_ready_of_mem_passed {q : List α} {a : α} (h : a ∈ passed cls isOpen q) :
    ready cls isOpen a = false := by
  have := List.mem_takeWhile_imp h
  simpa using this

theorem ready_of_taken {q : List α} {a : α} (h : taken cls isOpen q = some a) :
    ready cls isOpen a = true :=
  List.find?_some h

theorem passed_of_taken_none {q : List α} (h : taken cls isOpen q = none) : passed cls isOpen q = q := by
  rw [passed, List.takeWhile_eq_self_iff]
  intro a ha
  simpa using List.find?_eq_none.mp h a ha

/-- A scan takes something exactly where an element is ready. -/
theorem isSome_taken_iff (q : List α) :
    (taken cls isOpen q).isSome = true ↔ ∃ a ∈ q, ready cls isOpen a = true :=
  List.find?_isSome

/-- **Nothing is lost**: what is taken, what stays and what is dropped make up the queue. -/
theorem scan_perm (q : List α) :
    ((taken cls isOpen q).toList ++ (left cls isOpen q ++ dropped cls isOpen q)).Perm q := by
  have hsplit : ((passed cls isOpen q).filter (fun a => (cls a).isSome) ++ dropped cls isOpen q).Perm
      (passed cls isOpen q) := by
    have hnone : dropped cls isOpen q = (passed cls isOpen q).filter fun a => !(cls a).isSome := by
      simp only [dropped, Option.not_isSome]
    rw [hnone]
    exact List.filter_append_perm _ _
  have hleft : (left cls isOpen q ++ dropped cls isOpen q).Perm
      (passed cls isOpen q ++ unreached cls isOpen q) := by
    rw [left, List.append_assoc]
    apply (List.perm_append_comm.append_left _).trans
    rw [← List.append_assoc]
    exact hsplit.append_right _
  have hparts := passed_append cls isOpen q
  apply (hleft.append_left _).trans
  rw [← List.append_assoc]
  apply (List.perm_append_comm.append_right _).trans
  rw [hparts]

theorem mem_of_mem_left {q : List α} {a : α} (h : a ∈ left cls isOpen q) : a ∈ q :=
  (scan_perm cls isOpen q).mem_iff.mp (by simp [h])

theorem mem_of_mem_dropped {q : List α} {a : α} (h : a ∈ dropped cls isOpen q) : a ∈ q :=
  (scan_perm cls isOpen q).mem_iff.mp (by simp [h])

theorem mem_of_taken {q : List α} {a : α} (h : taken cls isOpen q = some a) : a ∈ q :=
  List.mem_of_find?_eq_some h

/-! ### Order within a class -/

variable [DecidableEq κ]

/-- The elements of a class, front first. -/
def ofClass (k : κ) (q : List α) : List α := q.filter fun a => decide (cls a = some k)

@[simp] theorem ofClass_append (k : κ) (q q' : List α) :
    ofClass cls k (q ++ q') = ofClass cls k q ++ ofClass cls k q' :=
  List.filter_append ..

/-- Nothing of a closed class is taken. -/
theorem ofClass_taken_of_closed {k : κ} (hk : isOpen k = false) (q : List α) :
    ofClass cls k (taken cls isOpen q).toList = [] := by
  cases h : taken cls isOpen q with
  | none => rfl
  | some a =>
    have hready := ready_of_taken cls isOpen h
    have hne : cls a ≠ some k := by
      intro ha
      rw [ready_of_some ha, hk] at hready
      cases hready
    simp [ofClass, hne]

/-- **One class**: what the scan takes of it is its front, and the rest of it stays as it is. -/
theorem ofClass_scan (k : κ) (q : List α) :
    ofClass cls k (taken cls isOpen q).toList ++ ofClass cls k (left cls isOpen q)
      = ofClass cls k q := by
  induction q with
  | nil => rfl
  | cons a q ih =>
    have hcons : ofClass cls k (a :: q) = ofClass cls k [a] ++ ofClass cls k q :=
      ofClass_append cls k [a] q
    cases h : cls a with
    | none =>
      have hself : ofClass cls k [a] = [] := by simp [ofClass, h]
      rw [taken_cons_of_not_ready q (ready_of_none h), left_cons_of_none q h, ih, hcons, hself,
        List.nil_append]
    | some j =>
      cases hj : isOpen j with
      | true =>
        have hready : ready cls isOpen a = true := (ready_of_some h).trans hj
        rw [taken_cons_of_ready q hready, left_cons_of_ready q hready, hcons]
        rfl
      | false =>
        have hready : ready cls isOpen a = false := (ready_of_some h).trans hj
        have hleft : ofClass cls k (a :: left cls isOpen q)
            = ofClass cls k [a] ++ ofClass cls k (left cls isOpen q) :=
          ofClass_append cls k [a] _
        rw [taken_cons_of_not_ready q hready, left_cons_of_closed q h hj, hleft, hcons, ← ih]
        by_cases hjk : j = k
        · -- the class is closed, so what is taken is of another
          rw [ofClass_taken_of_closed cls isOpen (hjk ▸ hj), List.nil_append, List.nil_append]
        · have hself : ofClass cls k [a] = [] := by simp [ofClass, h, hjk]
          rw [hself, List.nil_append, List.nil_append]

/-! ### Scan after scan -/

section Places

variable (keeps : α → Bool) (places : κ → ℕ)

/-- How many of the elements are of class `k` and keep a place. -/
def kept (k : κ) (q : List α) : ℕ := q.countP fun a => decide (cls a = some k) && keeps a

/-- Fewer of the elements `ahead` keep a place of the element's class than there are. -/
def fits (ahead : List α) (a : α) : Bool :=
  (cls a).any fun k => decide (kept cls keeps k ahead < places k)

/-- The elements that fit, front first, behind the elements `ahead`. -/
def dueBehind (ahead : List α) : List α → List α
  | [] => []
  | a :: q =>
    if fits cls keeps places ahead a then a :: dueBehind (ahead ++ [a]) q
    else dueBehind (ahead ++ [a]) q

/-- The elements that fit, front first. -/
def due (q : List α) : List α := dueBehind cls keeps places [] q

/-- The elements with fewer than `n` due ones ahead of them, behind the elements `ahead`. -/
def reachedBehind (n : ℕ) (ahead : List α) : List α → List α
  | [] => []
  | a :: q =>
    if (due cls keeps places ahead).length < n then a :: reachedBehind n (ahead ++ [a]) q else []

/-- The elements without a class that have fewer than `n` due ones ahead of them. -/
def strays (n : ℕ) (q : List α) : List α :=
  (reachedBehind cls keeps places n [] q).filter fun a => (cls a).isNone

/-- The places that the elements `ahead` leave. -/
def rest (ahead : List α) : κ → ℕ := fun k => places k - kept cls keeps k ahead

/-- The class has a place. -/
def hasPlace (k : κ) : Bool := decide (0 < places k)

variable {cls keeps places}

theorem kept_append (k : κ) (q q' : List α) :
    kept cls keeps k (q ++ q') = kept cls keeps k q + kept cls keeps k q' :=
  List.countP_append

theorem rest_of_not_keeps {a : α} (h : keeps a = false) : rest cls keeps places [a] = places := by
  funext k
  simp [rest, kept, h]

theorem rest_of_class {a : α} {k : κ} (h : cls a = some k) (hkeeps : keeps a = true) :
    rest cls keeps places [a] = Function.update places k (places k - 1) := by
  funext j
  rcases eq_or_ne j k with rfl | hne
  · simp [rest, kept, h, hkeeps]
  · simp [rest, kept, h, hne, hne.symm]

/-- An element that does not fit keeps no place. -/
theorem rest_of_not_ready {a : α} (h : ready cls (hasPlace places) a = false) :
    rest cls keeps places [a] = places := by
  funext k
  rcases eq_or_ne (cls a) (some k) with hk | hne
  · have hzero : places k = 0 := by
      rw [ready_of_some hk, hasPlace, decide_eq_false_iff_not] at h
      omega
    rw [rest, hzero, Nat.zero_sub]
  · simp [rest, kept, hne]

/-- What does not fit goes on not fitting. -/
theorem not_ready_rest {a : α} (h : ready cls (hasPlace places) a = false) (ahead : List α) :
    ready cls (hasPlace (rest cls keeps places ahead)) a = false := by
  cases hk : cls a with
  | none => exact ready_of_none hk
  | some k =>
    rw [ready_of_some hk, hasPlace, decide_eq_false_iff_not] at h ⊢
    rw [rest]
    omega

theorem fits_nil (a : α) : fits cls keeps places [] a = ready cls (hasPlace places) a := rfl

theorem fits_append (first ahead : List α) (a : α) :
    fits cls keeps places (first ++ ahead) a = fits cls keeps (rest cls keeps places first) ahead a := by
  unfold fits
  congr 1
  funext k
  rw [kept_append, rest, decide_eq_decide]
  omega

theorem dueBehind_append (first ahead q : List α) :
    dueBehind cls keeps places (first ++ ahead) q =
      dueBehind cls keeps (rest cls keeps places first) ahead q := by
  induction q generalizing ahead with
  | nil => rfl
  | cons a q ih => simp only [dueBehind, fits_append, List.append_assoc, ih]

theorem due_cons_of_ready {a : α} (h : ready cls (hasPlace places) a = true) (q : List α) :
    due cls keeps places (a :: q) = a :: due cls keeps (rest cls keeps places [a]) q := by
  rw [due, dueBehind, fits_nil, if_pos h, List.nil_append]
  exact congrArg (a :: ·) (dueBehind_append [a] [] q)

theorem due_cons_of_not_ready {a : α} (h : ready cls (hasPlace places) a = false) (q : List α) :
    due cls keeps places (a :: q) = due cls keeps places q := by
  have hskip : due cls keeps places (a :: q) = due cls keeps (rest cls keeps places [a]) q := by
    rw [due, dueBehind, fits_nil, if_neg (by simp [h]), List.nil_append]
    exact dueBehind_append [a] [] q
  rw [hskip, rest_of_not_ready h]

theorem due_of_not_ready {q : List α} (h : ∀ a ∈ q, ready cls (hasPlace places) a = false) :
    due cls keeps places q = [] := by
  induction q with
  | nil => rfl
  | cons a q ih =>
    rw [List.forall_mem_cons] at h
    rw [due_cons_of_not_ready h.1, ih h.2]

/-- **A scan takes the first element that is due**, and those behind it stay due. -/
theorem due_eq (q : List α) :
    due cls keeps places q = (taken cls (hasPlace places) q).toList ++
      due cls keeps (rest cls keeps places (taken cls (hasPlace places) q).toList)
        (left cls (hasPlace places) q) := by
  induction q with
  | nil => rfl
  | cons a q ih =>
    cases h : ready cls (hasPlace places) a with
    | true =>
      rw [due_cons_of_ready h, taken_cons_of_ready q h, left_cons_of_ready q h]
      rfl
    | false =>
      rw [due_cons_of_not_ready h, taken_cons_of_not_ready q h, ih]
      congr 1
      cases hk : cls a with
      | none => rw [left_cons_of_none q hk]
      | some k =>
        rw [left_cons_of_closed q hk ((ready_of_some hk).symm.trans h),
          due_cons_of_not_ready (not_ready_rest h _)]

/-- Nothing is due exactly where a scan takes nothing. -/
theorem due_eq_nil_iff (q : List α) :
    due cls keeps places q = [] ↔ taken cls (hasPlace places) q = none := by
  constructor
  · intro h
    rw [due_eq, List.append_eq_nil_iff, Option.toList_eq_nil_iff] at h
    exact h.1
  · intro h
    refine due_of_not_ready fun a ha => ?_
    simpa using List.find?_eq_none.mp h a ha

/-! ### What the scans drop -/

theorem reachedBehind_zero (ahead q : List α) : reachedBehind cls keeps places 0 ahead q = [] := by
  cases q with
  | nil => rfl
  | cons a q => exact if_neg (Nat.not_lt_zero _)

@[simp] theorem strays_zero (q : List α) : strays cls keeps places 0 q = [] := by
  rw [strays, reachedBehind_zero, List.filter_nil]

theorem reachedBehind_cons_of_not_ready {a : α} (h : ready cls (hasPlace places) a = false) (n : ℕ)
    (ahead q : List α) :
    reachedBehind cls keeps places n (a :: ahead) q = reachedBehind cls keeps places n ahead q := by
  induction q generalizing ahead with
  | nil => rfl
  | cons b q ih => simp only [reachedBehind, due_cons_of_not_ready h, List.cons_append, ih]

theorem reachedBehind_cons_of_ready {a : α} (h : ready cls (hasPlace places) a = true) (n : ℕ)
    (ahead q : List α) :
    reachedBehind cls keeps places (n + 1) (a :: ahead) q =
      reachedBehind cls keeps (rest cls keeps places [a]) n ahead q := by
  induction q generalizing ahead with
  | nil => rfl
  | cons b q ih =>
    simp only [reachedBehind, due_cons_of_ready h, List.length_cons, Nat.add_lt_add_iff_right,
      List.cons_append, ih]

theorem reachedBehind_cons (n : ℕ) (a : α) (q : List α) :
    reachedBehind cls keeps places (n + 1) [] (a :: q) =
      a :: reachedBehind cls keeps places (n + 1) [a] q :=
  if_pos (Nat.succ_pos n)

theorem strays_cons_of_ready {a : α} (h : ready cls (hasPlace places) a = true) (n : ℕ) (q : List α) :
    strays cls keeps places (n + 1) (a :: q) = strays cls keeps (rest cls keeps places [a]) n q := by
  obtain ⟨k, hk, -⟩ := ready_iff.mp h
  have hreached : reachedBehind cls keeps places (n + 1) [] (a :: q) =
      a :: reachedBehind cls keeps (rest cls keeps places [a]) n [] q := by
    rw [reachedBehind_cons, reachedBehind_cons_of_ready h]
  rw [strays, hreached, List.filter_cons_of_neg (by simp [hk])]
  rfl

theorem strays_cons_of_none {a : α} (h : cls a = none) (n : ℕ) (q : List α) :
    strays cls keeps places (n + 1) (a :: q) = a :: strays cls keeps places (n + 1) q := by
  rw [strays, reachedBehind_cons, reachedBehind_cons_of_not_ready (ready_of_none h),
    List.filter_cons_of_pos (by simp [h])]
  rfl

theorem strays_cons_of_closed {a : α} {k : κ} (h : cls a = some k) (hk : hasPlace places k = false)
    (n : ℕ) (q : List α) : strays cls keeps places n (a :: q) = strays cls keeps places n q := by
  cases n with
  | zero => simp
  | succ n =>
    rw [strays, reachedBehind_cons, reachedBehind_cons_of_not_ready ((ready_of_some h).trans hk),
      List.filter_cons_of_neg (by simp [h])]
    rfl

/-- **What `n + 1` scans drop**: what the first drops, and what the others drop of what it leaves. -/
theorem strays_succ (n : ℕ) (q : List α) :
    strays cls keeps places (n + 1) q = dropped cls (hasPlace places) q ++
      strays cls keeps (rest cls keeps places (taken cls (hasPlace places) q).toList) n
        (left cls (hasPlace places) q) := by
  induction q with
  | nil =>
    cases n with
    | zero => rfl
    | succ n => rfl
  | cons a q ih =>
    cases h : cls a with
    | none =>
      rw [strays_cons_of_none h, ih, dropped_cons_of_none q h, left_cons_of_none q h,
        taken_cons_of_not_ready q (ready_of_none h), List.cons_append]
    | some k =>
      cases hk : hasPlace places k with
      | true =>
        have hready : ready cls (hasPlace places) a = true := (ready_of_some h).trans hk
        rw [strays_cons_of_ready hready, dropped_cons_of_ready q hready, left_cons_of_ready q hready,
          taken_cons_of_ready q hready]
        rfl
      | false =>
        have hready : ready cls (hasPlace places) a = false := (ready_of_some h).trans hk
        have hclosed : hasPlace (rest cls keeps places (taken cls (hasPlace places) q).toList) k = false :=
          (ready_of_some h).symm.trans (not_ready_rest hready _)
        rw [strays_cons_of_closed h hk, ih, dropped_cons_of_closed q h hk, left_cons_of_closed q h hk,
          taken_cons_of_not_ready q hready, strays_cons_of_closed h hclosed]

end Places

end BulkTraffic.Lib.ClassQueue
