import Captioning.Bytes.Base64
/-!
# Base64 read back

Each digit stands for its number, and none of them is the padding. So the text of some bytes is read four digits at a time
as those bytes (`decode?_encode`).
-/

namespace Captioning.Base64

theorem value?_digit : ∀ n < 64, value? (digit n) = some n := by decide +kernel

theorem digit_ne : ∀ n < 64, digit n ≠ '=' := by decide +kernel

/-- Three digits and padding stand for two bytes. -/
theorem decode?_three {p q r : Char} (hr : r ≠ '=') : decode? [p, q, r, '='] = (do
    let n := ((← value? p) * 64 + (← value? q)) * 64 + (← value? r)
    if n % 4 == 0 then some [UInt8.ofNat (n / 1024), UInt8.ofNat (n / 4 % 256)] else none) := by
  rw [decode?]
  simpa using hr

/-- Four digits stand for three bytes. -/
theorem decode?_four {p q r s : Char} (hs : s ≠ '=') (rest : List Char) : decode? (p :: q :: r :: s :: rest) = (do
    let n := (((← value? p) * 64 + (← value? q)) * 64 + (← value? r)) * 64 + (← value? s)
    let more ← decode? rest
    some (UInt8.ofNat (n / 65536) :: UInt8.ofNat (n / 256 % 256) :: UInt8.ofNat (n % 256) :: more)) := by
  rw [decode?]
  · exact fun _ h => absurd h hs
  · exact fun h => absurd h hs

/-- A byte is what its number stands for, however that has been put together. -/
theorem ofNat_eq {n : Nat} {a : UInt8} (h : n = a.toNat) : UInt8.ofNat n = a := by
  rw [h, UInt8.ofNat_toNat]

theorem decode?_encode (b : Bytes) : decode? (encode b) = some b := by
  -- the digits are those of `n` to the base of sixty-four, and the bytes those to the base of 256
  fun_induction encode b with
  | case1 => rfl
  | case2 a n =>
    have ha := a.toNat_lt
    have h1 := value?_digit (n / 64) (by omega)
    have h2 := value?_digit (n % 64) (by omega)
    have hn : n / 64 * 64 + n % 64 = n := Nat.div_add_mod' n 64
    have hlast : (n % 16 == 0) = true := beq_iff_eq.2 (by omega)
    rw [decode?]
    simp only [h1, h2, hn, hlast, Option.bind_eq_bind, Option.bind_some, if_true, ofNat_eq (by omega : n / 16 = a.toNat)]
  | case3 a b n =>
    have ha := a.toNat_lt
    have hb := b.toNat_lt
    have h1 := value?_digit (n / 4096) (by omega)
    have h2 := value?_digit (n / 64 % 64) (by omega)
    have h3 := value?_digit (n % 64) (by omega)
    have hn : (n / 4096 * 64 + n / 64 % 64) * 64 + n % 64 = n := by omega
    have hlast : (n % 4 == 0) = true := beq_iff_eq.2 (by omega)
    rw [decode?_three (digit_ne _ (by omega))]
    simp only [h1, h2, h3, hn, hlast, Option.bind_eq_bind, Option.bind_some, if_true,
      ofNat_eq (by omega : n / 1024 = a.toNat), ofNat_eq (by omega : n / 4 % 256 = b.toNat)]
  | case4 a b c rest n ih =>
    have ha := a.toNat_lt
    have hb := b.toNat_lt
    have hc := c.toNat_lt
    have h1 := value?_digit (n / 262144) (by omega)
    have h2 := value?_digit (n / 4096 % 64) (by omega)
    have h3 := value?_digit (n / 64 % 64) (by omega)
    have h4 := value?_digit (n % 64) (by omega)
    have hn : ((n / 262144 * 64 + n / 4096 % 64) * 64 + n / 64 % 64) * 64 + n % 64 = n := by omega
    rw [decode?_four (digit_ne _ (by omega))]
    simp only [h1, h2, h3, h4, hn, ih, Option.bind_eq_bind, Option.bind_some,
      ofNat_eq (by omega : n / 65536 = a.toNat), ofNat_eq (by omega : n / 256 % 256 = b.toNat),
      ofNat_eq (by omega : n % 256 = c.toNat)]

end Captioning.Base64
