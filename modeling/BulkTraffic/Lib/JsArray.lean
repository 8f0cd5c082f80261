import BulkTraffic.Lib.Weight

/-!
# Arrays written by index

A JavaScript array that is read and written by index. Reading an index the array does not
have gives `hole`; writing one fills the indices in between with `hole`.
-/

namespace BulkTraffic.Lib.JsArray

variable {α : Type*} (hole : α)

/-- `array[i]`. -/
def read (l : List α) (i : ℕ) : α := l.getD i hole

/-- `array[i] = a`. -/
def write : List α → ℕ → α → List α
  | [], 0, a => [a]
  | [], i + 1, a => hole :: write [] i a
  | _ :: l, 0, a => a :: l
  | b :: l, i + 1, a => b :: write l i a

@[simp] theorem read_nil (i : ℕ) : read hole [] i = hole := by simp [read]

@[simp] theorem read_cons_zero (a : α) (l : List α) : read hole (a :: l) 0 = a := rfl

@[simp] theorem read_cons_succ (a : α) (l : List α) (i : ℕ) :
    read hole (a :: l) (i + 1) = read hole l i := by
  simp [read]

theorem read_write (l : List α) (i j : ℕ) (a : α) :
    read hole (write hole l i a) j = if i = j then a else read hole l j := by
  induction i generalizing l j with
  | zero => cases l <;> cases j <;> simp [write]
  | succ i ih => cases l <;> cases j <;> simp [write, ih]

@[simp] theorem read_write_self (l : List α) (i : ℕ) (a : α) :
    read hole (write hole l i a) i = a := by
  simp [read_write]

theorem length_write {l : List α} {i : ℕ} (h : i < l.length) (a : α) :
    (write hole l i a).length = l.length := by
  induction l generalizing i with
  | nil => cases h
  | cons b l ih =>
    cases i with
    | zero => rfl
    | succ i => simp [write, ih (Nat.lt_of_succ_lt_succ h)]

/-- Where holes weigh nothing, writing exchanges the old element's weight for the new one's. -/
theorem weight_write {w : α → ℕ} (hw : w hole = 0) (l : List α) (i : ℕ) (a : α) :
    weight w (write hole l i a) + w (read hole l i) = weight w l + w a := by
  induction i generalizing l with
  | zero => cases l <;> simp [write, hw]; omega
  | succ i ih =>
    cases l with
    | nil => have := ih []; simp [write, hw] at this ⊢; omega
    | cons b l => have := ih l; simp [write]; omega

end BulkTraffic.Lib.JsArray
