import Mathlib.Algebra.Group.Nat.Defs
import Mathlib.Data.List.Basic

/-!
# Decoding UTF-8

The decoder that replaces what is malformed: it takes one byte after the other, gives a character
when its last byte has come, and `U+FFFD` in place of a sequence that is broken off. Then it looks at
the byte that broke it off as if it came first. `run` decodes a part of a stream and keeps the state;
`decode` decodes bytes that end here.

* `run_append`: a stream can be decoded in parts.
* `decode_append_right`, `decode_between`: bytes that are decoded without a replacement are decoded
  the same next to any others.
* `splitOn_decode`: the lines of the text are the lines of the bytes.
* `run_encode`: the bytes of a text are decoded to it.
-/

namespace BulkTraffic.Lib.Utf8

/-- What stands for malformed bytes. -/
def replacement : Char := Char.ofNat 0xFFFD

/-- A character whose first bytes have come. The code point has `6` more bits for each byte. -/
structure Pending where
  /-- How many bytes follow the next one. -/
  more : ℕ
  /-- The least the next byte can be. -/
  lower : ℕ
  /-- The greatest the next byte can be. -/
  upper : ℕ
  /-- The bits that have come. -/
  codePoint : ℕ
  lower_ge : 0x80 ≤ lower
  upper_le : upper ≤ 0xBF
  large : 0x80 ≤ (codePoint * 64 + (lower - 0x80)) * 64 ^ more

/-- Between two characters, or inside one. -/
abbrev State := Option Pending

/-- The bits of a byte inside a character, behind those that have come. -/
def Pending.bits (p : Pending) (b : ℕ) : ℕ := p.codePoint * 64 + (b - 0x80)

theorem Pending.large_bits (p : Pending) {b : ℕ} (h : p.lower ≤ b) : 0x80 ≤ p.bits b * 64 ^ p.more := by
  have hle : p.codePoint * 64 + (p.lower - 0x80) ≤ p.bits b :=
    Nat.add_le_add_left (Nat.sub_le_sub_right h 0x80) _
  exact Nat.le_trans p.large (Nat.mul_le_mul_right _ hle)

/-- The next byte of a character. -/
def Pending.next (p : Pending) (b : ℕ) (h : p.lower ≤ b) : List Char × State :=
  match hmore : p.more with
  | 0 => ([Char.ofNat (p.bits b)], none)
  | more + 1 =>
    ([], some {
      more, lower := 0x80, upper := 0xBF, codePoint := p.bits b
      lower_ge := Nat.le_refl _
      upper_le := Nat.le_refl _
      large := by
        have hlarge := p.large_bits h
        rw [hmore, Nat.pow_succ'] at hlarge
        rwa [Nat.sub_self, Nat.add_zero, Nat.mul_assoc] })

/-- The least byte behind a first byte: a shorter form of a character is malformed. -/
def lowerAfter (b : ℕ) : ℕ := if b = 0xE0 then 0xA0 else if b = 0xF0 then 0x90 else 0x80

/-- The greatest byte behind a first byte: there are no surrogates and nothing above `0x10FFFF`. -/
def upperAfter (b : ℕ) : ℕ := if b = 0xED then 0x9F else if b = 0xF4 then 0x8F else 0xBF

theorem le_lowerAfter (b : ℕ) : 0x80 ≤ lowerAfter b := by
  rw [lowerAfter]
  split_ifs <;> decide

theorem upperAfter_le (b : ℕ) : upperAfter b ≤ 0xBF := by
  rw [upperAfter]
  split_ifs <;> decide

/-- The first byte of a character. -/
def first (b : ℕ) : List Char × State :=
  if b ≤ 0x7F then ([Char.ofNat b], none)
  else if h : 0xC2 ≤ b ∧ b ≤ 0xDF then
    ([], some {
      more := 0, lower := 0x80, upper := 0xBF, codePoint := b - 0xC0
      lower_ge := Nat.le_refl _
      upper_le := Nat.le_refl _
      large := by omega })
  else if h : 0xE0 ≤ b ∧ b ≤ 0xEF then
    ([], some {
      more := 1, lower := lowerAfter b, upper := upperAfter b, codePoint := b - 0xE0
      lower_ge := le_lowerAfter b
      upper_le := upperAfter_le b
      large := by rw [lowerAfter]; split_ifs <;> omega })
  else if h : 0xF0 ≤ b ∧ b ≤ 0xF4 then
    ([], some {
      more := 2, lower := lowerAfter b, upper := upperAfter b, codePoint := b - 0xF0
      lower_ge := le_lowerAfter b
      upper_le := upperAfter_le b
      large := by rw [lowerAfter]; split_ifs <;> omega })
  else ([replacement], none)

/-- One byte. A byte that cannot follow breaks the character off and comes first. -/
def step : State → UInt8 → List Char × State
  | none, b => first b.toNat
  | some p, b =>
    if h : p.lower ≤ b.toNat ∧ b.toNat ≤ p.upper then p.next b.toNat h.1
    else (replacement :: (first b.toNat).1, (first b.toNat).2)

/-- Some bytes of a stream: what they give, and the state behind them. -/
def run : State → List UInt8 → List Char × State
  | s, [] => ([], s)
  | s, b :: bs => ((step s b).1 ++ (run (step s b).2 bs).1, (run (step s b).2 bs).2)

/-- The end of a stream. -/
def flush : State → List Char
  | none => []
  | some _ => [replacement]

/-- The rest of a stream. -/
def decodeFrom (s : State) (bs : List UInt8) : List Char := (run s bs).1 ++ flush (run s bs).2

/-- The text of bytes. -/
def decode (bs : List UInt8) : List Char := decodeFrom none bs

example : decode [0xEA, 0xB0, 0x80] = ['가'] := by decide +kernel

example : decode [0xEA, 0xB0] = [replacement] := by decide +kernel

/-! ### Decoding in parts -/

theorem run_append (s : State) (xs ys : List UInt8) :
    run s (xs ++ ys) = ((run s xs).1 ++ (run (run s xs).2 ys).1, (run (run s xs).2 ys).2) := by
  induction xs generalizing s with
  | nil => rfl
  | cons b xs ih => simp only [List.cons_append, run, ih, List.append_assoc]

theorem decodeFrom_append (s : State) (xs ys : List UInt8) :
    decodeFrom s (xs ++ ys) = (run s xs).1 ++ decodeFrom (run s xs).2 ys := by
  rw [decodeFrom, decodeFrom, run_append, List.append_assoc]

theorem decodeFrom_cons (s : State) (b : UInt8) (bs : List UInt8) :
    decodeFrom s (b :: bs) = (step s b).1 ++ decodeFrom (step s b).2 bs :=
  List.append_assoc ..

/-- A byte that only stands inside a character. -/
def IsTail (b : UInt8) : Prop := 0x80 ≤ b.toNat ∧ b.toNat ≤ 0xBF

/-- Such a byte does not come first. -/
theorem first_of_isTail {b : UInt8} (h : IsTail b) : first b.toNat = ([replacement], none) := by
  obtain ⟨hlow, hhigh⟩ := h
  rw [first, if_neg (by omega), dif_neg (by omega), dif_neg (by omega), dif_neg (by omega)]

/-- Any other byte breaks off the character before it. -/
theorem step_of_not_isTail {b : UInt8} (h : ¬ IsTail b) (s : State) :
    step s b = (flush s ++ (first b.toNat).1, (first b.toNat).2) := by
  cases s with
  | none => rfl
  | some p =>
    have hout : ¬ (p.lower ≤ b.toNat ∧ b.toNat ≤ p.upper) := by
      rintro ⟨hlow, hhigh⟩
      exact h ⟨Nat.le_trans p.lower_ge hlow, Nat.le_trans hhigh p.upper_le⟩
    exact dif_neg hout

theorem decodeFrom_of_not_isTail {b : UInt8} (h : ¬ IsTail b) (s : State) (bs : List UInt8) :
    decodeFrom s (b :: bs) = flush s ++ decode (b :: bs) := by
  rw [decode, decodeFrom_cons, decodeFrom_cons, step_of_not_isTail h, List.append_assoc]
  rfl

/-- What is decoded without a replacement ends between two characters. -/
theorem run_of_clean {bs : List UInt8} (h : replacement ∉ decode bs) : run none bs = (decode bs, none) := by
  rw [decode, decodeFrom] at h ⊢
  cases hstate : (run none bs).2 with
  | none =>
    rw [flush, List.append_nil]
    exact Prod.ext rfl hstate
  | some p =>
    rw [hstate] at h
    exact absurd (List.mem_append_right _ (List.mem_singleton_self _)) h

/-- **What is decoded without a replacement is so before other bytes.** -/
theorem decode_append_right {bs : List UInt8} (h : replacement ∉ decode bs) (after : List UInt8) :
    decode (bs ++ after) = decode bs ++ decode after := by
  rw [decode, decodeFrom_append, run_of_clean h]
  rfl

/-- A byte that comes first begins anew. -/
theorem decode_append_cons {b : UInt8} (h : ¬ IsTail b) (before bs : List UInt8) :
    decode (before ++ b :: bs) = decode before ++ decode (b :: bs) := by
  rw [decode, decodeFrom_append, decodeFrom_of_not_isTail h, ← List.append_assoc]
  rfl

theorem not_isTail_of_clean {b : UInt8} {bs : List UInt8} (h : replacement ∉ decode (b :: bs)) : ¬ IsTail b := by
  intro htail
  apply h
  rw [decode, decodeFrom_cons, step, first_of_isTail htail]
  exact List.mem_append_left _ (List.mem_singleton_self _)

/-- **And between other bytes.** -/
theorem decode_between {bs : List UInt8} (h : replacement ∉ decode bs) (hne : bs ≠ []) (before after : List UInt8) :
    decode (before ++ (bs ++ after)) = decode before ++ (decode bs ++ decode after) := by
  obtain ⟨b, rest, rfl⟩ := List.exists_cons_of_ne_nil hne
  have happend := decode_append_right h after
  rw [List.cons_append] at happend ⊢
  rw [decode_append_cons (not_isTail_of_clean h), happend]

/-! ### What a byte gives -/

/-- A byte gives a character or is waited on. -/
theorem first_progress (b : ℕ) : (first b).1 ≠ [] ∨ (first b).2 ≠ none := by
  rw [first]
  split_ifs
  · exact .inl (List.cons_ne_nil _ _)
  · exact .inr (Option.some_ne_none _)
  · exact .inr (Option.some_ne_none _)
  · exact .inr (Option.some_ne_none _)
  · exact .inl (List.cons_ne_nil _ _)

theorem step_progress (s : State) (b : UInt8) : (step s b).1 ≠ [] ∨ (step s b).2 ≠ none := by
  cases s with
  | none => exact first_progress b.toNat
  | some p =>
    rw [step]
    split
    · rw [Pending.next]
      split
      · exact .inl (List.cons_ne_nil _ _)
      · exact .inr (Option.some_ne_none _)
    · exact .inl (List.cons_ne_nil _ _)

/-- Bytes are not lost. -/
theorem decodeFrom_ne_nil {s : State} {bs : List UInt8} (h : s ≠ none ∨ bs ≠ []) : decodeFrom s bs ≠ [] := by
  induction bs generalizing s with
  | nil =>
    cases s with
    | none => exact absurd rfl (h.resolve_right fun hne => hne rfl)
    | some p => exact List.cons_ne_nil _ _
  | cons b bs ih =>
    rw [decodeFrom_cons]
    intro hnil
    obtain ⟨hout, hrest⟩ := List.append_eq_nil_iff.mp hnil
    exact ih (.inl ((step_progress s b).resolve_left fun hne => hne hout)) hrest

theorem decode_eq_nil_iff {bs : List UInt8} : decode bs = [] ↔ bs = [] := by
  constructor
  · intro h
    by_contra hne
    exact decodeFrom_ne_nil (.inr hne) h
  · rintro rfl
    rfl

/-! ### Lines -/

theorem eq_ten_of_ofNat {n : ℕ} (h : Char.ofNat n = '\n') : n = 10 := by
  have htoNat : (Char.ofNat n).toNat = 10 := congrArg Char.toNat h
  by_cases hvalid : n.isValidChar
  · rw [Char.ofNat, dif_pos hvalid] at htoNat
    exact htoNat
  · rw [Char.ofNat, dif_neg hvalid] at htoNat
    cases htoNat

theorem eq_newline_of_mem_first {b : UInt8} (h : '\n' ∈ (first b.toNat).1) : b = 0x0A := by
  rw [first] at h
  split_ifs at h
  · rw [← UInt8.toNat_inj]
    exact eq_ten_of_ofNat (List.mem_singleton.mp h).symm
  · cases h
  · cases h
  · cases h
  · exact absurd (List.mem_singleton.mp h) (by decide)

/-- Only the byte of a line break gives one. -/
theorem eq_newline_of_mem_step {s : State} {b : UInt8} (h : '\n' ∈ (step s b).1) : b = 0x0A := by
  cases s with
  | none => exact eq_newline_of_mem_first h
  | some p =>
    rw [step] at h
    split at h
    · rename_i hrange
      rw [Pending.next] at h
      split at h
      · rename_i hmore
        have hbits := eq_ten_of_ofNat (List.mem_singleton.mp h).symm
        have hlarge := p.large_bits hrange.1
        rw [hmore, hbits] at hlarge
        exact absurd hlarge (by decide)
      · cases h
    · rcases List.mem_cons.mp h with heq | hmem
      · exact absurd heq (by decide)
      · exact eq_newline_of_mem_first hmem

theorem newline_not_mem_decodeFrom {bs : List UInt8} (h : 0x0A ∉ bs) (s : State) :
    '\n' ∉ decodeFrom s bs := by
  induction bs generalizing s with
  | nil =>
    cases s with
    | none => exact List.not_mem_nil
    | some p => exact fun hmem => absurd (List.mem_singleton.mp hmem) (by decide)
  | cons b bs ih =>
    rw [decodeFrom_cons, List.mem_append, not_or]
    obtain ⟨hb, hbs⟩ := not_or.mp (fun hmem => h (List.mem_cons.mpr hmem))
    exact ⟨fun hmem => hb (eq_newline_of_mem_step hmem).symm, ih hbs _⟩

theorem newline_not_mem_decode {bs : List UInt8} (h : 0x0A ∉ bs) : '\n' ∉ decode bs :=
  newline_not_mem_decodeFrom h none

/-- A line break ends what comes before it. -/
theorem decode_newline (xs ys : List UInt8) : decode (xs ++ 0x0A :: ys) = decode xs ++ '\n' :: decode ys := by
  have hfirst : ¬ IsTail 0x0A := fun h => absurd h.1 (by decide)
  have hcons : decode (0x0A :: ys) = '\n' :: decode ys := rfl
  rw [decode_append_cons hfirst, hcons]

/-- **The lines of a text are the lines of its bytes.** -/
theorem splitOn_decode (bs : List UInt8) : (decode bs).splitOn '\n' = (bs.splitOn 0x0A).map decode := by
  induction hlength : bs.length using Nat.strongRecOn generalizing bs with
  | ind n ih =>
    by_cases hmem : 0x0A ∈ bs
    · obtain ⟨xs, ys, rfl, hxs⟩ := List.eq_append_cons_of_mem hmem
      have hys : ys.length < n := by
        rw [← hlength, List.length_append, List.length_cons]
        omega
      rw [decode_newline, List.splitOn_append_cons_self_of_not_mem (newline_not_mem_decode hxs),
        List.splitOn_append_cons_self_of_not_mem hxs, ih _ hys ys rfl]
      rfl
    · rw [List.splitOn_eq_singleton hmem, List.splitOn_eq_singleton (newline_not_mem_decode hmem)]
      rfl

/-! ### Texts -/

/-- The bytes of a text. -/
def encode (cs : List Char) : List UInt8 := cs.flatMap String.utf8EncodeChar

/-- A character that waits for bytes: how many, the range of the next one, and what has come. -/
def Awaits (s : State) (more lower upper codePoint : ℕ) : Prop :=
  ∃ p, s = some p ∧ p.more = more ∧ p.lower = lower ∧ p.upper = upper ∧ p.codePoint = codePoint

theorem step_last {s : State} {lower upper codePoint : ℕ} (h : Awaits s 0 lower upper codePoint) {b : UInt8}
    (hlow : lower ≤ b.toNat) (hhigh : b.toNat ≤ upper) :
    step s b = ([Char.ofNat (codePoint * 64 + (b.toNat - 0x80))], none) := by
  obtain ⟨p, rfl, hmore, rfl, rfl, rfl⟩ := h
  rw [step, dif_pos ⟨hlow, hhigh⟩, Pending.next]
  split
  · rfl
  · rename_i heq
    rw [hmore] at heq
    cases heq

theorem step_more {s : State} {more lower upper codePoint : ℕ} (h : Awaits s (more + 1) lower upper codePoint)
    {b : UInt8} (hlow : lower ≤ b.toNat) (hhigh : b.toNat ≤ upper) :
    (step s b).1 = [] ∧ Awaits (step s b).2 more 0x80 0xBF (codePoint * 64 + (b.toNat - 0x80)) := by
  obtain ⟨p, rfl, hmore, rfl, rfl, rfl⟩ := h
  rw [step, dif_pos ⟨hlow, hhigh⟩, Pending.next]
  split
  · rename_i heq
    rw [hmore] at heq
    cases heq
  · rename_i k heq
    obtain rfl : k = more := by omega
    exact ⟨rfl, _, rfl, rfl, rfl, rfl, rfl⟩

theorem step_two {b : UInt8} (hlow : 0xC2 ≤ b.toNat) (hhigh : b.toNat ≤ 0xDF) :
    (step none b).1 = [] ∧ Awaits (step none b).2 0 0x80 0xBF (b.toNat - 0xC0) := by
  rw [step, first, if_neg (by omega), dif_pos ⟨hlow, hhigh⟩]
  exact ⟨rfl, _, rfl, rfl, rfl, rfl, rfl⟩

theorem step_three {b : UInt8} (hlow : 0xE0 ≤ b.toNat) (hhigh : b.toNat ≤ 0xEF) :
    (step none b).1 = [] ∧
      Awaits (step none b).2 1 (lowerAfter b.toNat) (upperAfter b.toNat) (b.toNat - 0xE0) := by
  rw [step, first, if_neg (by omega), dif_neg (by omega), dif_pos ⟨hlow, hhigh⟩]
  exact ⟨rfl, _, rfl, rfl, rfl, rfl, rfl⟩

theorem step_four {b : UInt8} (hlow : 0xF0 ≤ b.toNat) (hhigh : b.toNat ≤ 0xF4) :
    (step none b).1 = [] ∧
      Awaits (step none b).2 2 (lowerAfter b.toNat) (upperAfter b.toNat) (b.toNat - 0xF0) := by
  rw [step, first, if_neg (by omega), dif_neg (by omega), dif_neg (by omega), dif_pos ⟨hlow, hhigh⟩]
  exact ⟨rfl, _, rfl, rfl, rfl, rfl, rfl⟩

theorem run_of_more {s : State} {b : UInt8} (h : (step s b).1 = []) (bs : List UInt8) :
    run s (b :: bs) = run (step s b).2 bs := by
  rw [run, h]
  rfl

theorem run_of_last {s : State} {b : UInt8} {c : Char} (h : step s b = ([c], none)) :
    run s [b] = ([c], none) := by
  rw [run, h]
  rfl

/-- The bytes of a character are decoded to it. -/
theorem run_encodeChar (c : Char) : run none (String.utf8EncodeChar c) = ([c], none) := by
  have hvalid : c.val.toNat < 0xD800 ∨ 0xDFFF < c.val.toNat ∧ c.val.toNat < 0x110000 := c.valid
  have hback : Char.ofNat c.val.toNat = c := Char.ofNat_toNat c
  have hbyte : ∀ n, n < 256 → (UInt8.ofNat n).toNat = n := fun n hn => UInt8.toNat_ofNat_of_lt' hn
  rw [String.utf8EncodeChar]
  generalize c.val.toNat = v at hvalid hback ⊢
  split
  · rename_i h
    apply run_of_last
    rw [step, hbyte v (by omega), first, if_pos h, hback]
  · have htail₀ := hbyte (v % 64 + 0x80) (by omega)
    split
    · have hfirst := hbyte (v / 64 % 32 + 0xC0) (by omega)
      obtain ⟨hnone, hwait⟩ := step_two (b := UInt8.ofNat (v / 64 % 32 + 0xC0)) (by omega) (by omega)
      have hvalue : (v / 64 % 32 + 0xC0 - 0xC0) * 64 + (v % 64 + 0x80 - 0x80) = v := by omega
      rw [run_of_more hnone]
      apply run_of_last
      rw [step_last hwait (by omega) (by omega), hfirst, htail₀, hvalue, hback]
    · have htail₁ := hbyte (v / 64 % 64 + 0x80) (by omega)
      split
      · have hfirst := hbyte (v / 4096 % 16 + 0xE0) (by omega)
        obtain ⟨hnone₁, hwait₁⟩ := step_three (b := UInt8.ofNat (v / 4096 % 16 + 0xE0)) (by omega) (by omega)
        obtain ⟨hnone₂, hwait₂⟩ := step_more hwait₁ (b := UInt8.ofNat (v / 64 % 64 + 0x80))
          (by rw [lowerAfter]; split_ifs <;> omega) (by rw [upperAfter]; split_ifs <;> omega)
        have hvalue : ((v / 4096 % 16 + 0xE0 - 0xE0) * 64 + (v / 64 % 64 + 0x80 - 0x80)) * 64 +
            (v % 64 + 0x80 - 0x80) = v := by omega
        rw [run_of_more hnone₁, run_of_more hnone₂]
        apply run_of_last
        rw [step_last hwait₂ (by omega) (by omega), hfirst, htail₁, htail₀, hvalue, hback]
      · have htail₂ := hbyte (v / 4096 % 64 + 0x80) (by omega)
        have hfirst := hbyte (v / 262144 % 8 + 0xF0) (by omega)
        obtain ⟨hnone₁, hwait₁⟩ := step_four (b := UInt8.ofNat (v / 262144 % 8 + 0xF0)) (by omega) (by omega)
        obtain ⟨hnone₂, hwait₂⟩ := step_more hwait₁ (b := UInt8.ofNat (v / 4096 % 64 + 0x80))
          (by rw [lowerAfter]; split_ifs <;> omega) (by rw [upperAfter]; split_ifs <;> omega)
        obtain ⟨hnone₃, hwait₃⟩ := step_more hwait₂ (b := UInt8.ofNat (v / 64 % 64 + 0x80)) (by omega) (by omega)
        have hvalue : (((v / 262144 % 8 + 0xF0 - 0xF0) * 64 + (v / 4096 % 64 + 0x80 - 0x80)) * 64 +
            (v / 64 % 64 + 0x80 - 0x80)) * 64 + (v % 64 + 0x80 - 0x80) = v := by omega
        rw [run_of_more hnone₁, run_of_more hnone₂, run_of_more hnone₃]
        apply run_of_last
        rw [step_last hwait₃ (by omega) (by omega), hfirst, htail₂, htail₁, htail₀, hvalue, hback]

/-- **The bytes of a text are decoded to it.** -/
theorem run_encode (cs : List Char) : run none (encode cs) = (cs, none) := by
  induction cs with
  | nil => rfl
  | cons c cs ih =>
    rw [encode, List.flatMap_cons, run_append, run_encodeChar]
    change ([c] ++ (run none (encode cs)).1, (run none (encode cs)).2) = (c :: cs, none)
    rw [ih]
    rfl

theorem decode_encode (cs : List Char) : decode (encode cs) = cs := by
  rw [decode, decodeFrom, run_encode]
  exact List.append_nil cs

end BulkTraffic.Lib.Utf8
