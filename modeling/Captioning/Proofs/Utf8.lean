import Captioning.Bytes.Utf8
/-!
# Texts as bytes and back

What is read from the bytes of a text is that text (`decodeFrom_encode`). Bytes either are a text, behind which
reading goes on, or are torn: no text, whatever comes behind them afresh (`decodeFrom_append`). So every front
of the bytes of a text is that of a shorter text, or torn inside of a character (`take_encode`).
-/

namespace Captioning.Utf8

theorem toNat_byte {n : Nat} (h : n < 256) : (UInt8.ofNat n).toNat = n := by
  simp [UInt8.toNat_ofNat', h]

/-- No byte comes next that could belong to a character in front of it. -/
def Fresh (t : Bytes) : Prop :=
  ∀ b ∈ t.head?, b < 0x80

@[simp] theorem fresh_nil : Fresh [] := by simp [Fresh]

@[simp] theorem fresh_cons (b : UInt8) (t : Bytes) : Fresh (b :: t) ↔ b < 0x80 := by simp [Fresh]

/-! ## One character -/

theorem isTail_byte {n : Nat} (h : 0x80 ≤ n) (h' : n ≤ 0xBF) : isTail (UInt8.ofNat n) = true := by
  have e := toNat_byte (n := n) (by omega)
  have h1 : (0x80 : UInt8) ≤ UInt8.ofNat n := by rw [UInt8.le_iff_toNat_le, e]; exact h
  have h2 : UInt8.ofNat n ≤ 0xBF := by rw [UInt8.le_iff_toNat_le, e]; exact h'
  simp [isTail, h1, h2]

theorem tailBits_byte {n : Nat} (h : n ≤ 0xBF) : tailBits (UInt8.ofNat n) = n - 0x80 := by
  have e := toNat_byte (n := n) (by omega)
  unfold tailBits
  rw [e]

theorem not_isTail {b : UInt8} (h : b < 0x80) : isTail b = false := by
  rw [UInt8.lt_iff_toNat_lt] at h
  have hb : b.toNat < 128 := h
  simp only [isTail, Bool.and_eq_false_iff, decide_eq_false_iff_not, UInt8.le_iff_toNat_le]
  left
  simp
  omega

theorem not_secondOk {b : UInt8} (a : UInt8) (h : b < 0x80) : secondOk a b = false := by
  have ht := not_isTail h
  rw [UInt8.lt_iff_toNat_lt] at h
  have hb : b.toNat < 128 := h
  unfold secondOk
  repeat' split
  all_goals first
    | exact ht
    | (simp only [Bool.and_eq_false_iff, decide_eq_false_iff_not, UInt8.le_iff_toNat_le]
       left; simp; omega)

theorem front_one {a : Nat} (h : a < 0x80) (r : Bytes) :
    front (UInt8.ofNat a :: r) = .char (Char.ofNat a) r := by
  have e := toNat_byte (n := a) (by omega)
  have hl : UInt8.ofNat a < 0x80 := by rw [UInt8.lt_iff_toNat_lt, e]; exact h
  simp [front, hl, e]

/-- A byte that starts a longer form. -/
theorem front_lead {a : Nat} (h : 0xC2 ≤ a) (h' : a ≤ 0xF4) :
    (UInt8.ofNat a < 0x80) = False ∧ (UInt8.ofNat a < 0xC2 || 0xF4 < UInt8.ofNat a) = false := by
  have e := toNat_byte (n := a) (by omega)
  simp only [UInt8.lt_iff_toNat_lt, e, Bool.or_eq_false_iff, decide_eq_false_iff_not, eq_iff_iff, iff_false]
  refine ⟨?_, ?_, ?_⟩ <;> simp <;> omega

theorem secondOk_byte {a b : Nat} (ha : a ≤ 0xF4) (hb : 0x80 ≤ b) (hb' : b ≤ 0xBF)
    (h0 : a = 0xE0 → 0xA0 ≤ b) (h1 : a = 0xED → b ≤ 0x9F) (h2 : a = 0xF0 → 0x90 ≤ b)
    (h3 : a = 0xF4 → b ≤ 0x8F) : secondOk (UInt8.ofNat a) (UInt8.ofNat b) = true := by
  have ea := toNat_byte (n := a) (by omega)
  have eb := toNat_byte (n := b) (by omega)
  have ht := isTail_byte hb hb'
  unfold secondOk
  simp only [beq_iff_eq, ← UInt8.toNat_inj, ea, UInt8.le_iff_toNat_le, eb]
  repeat' split
  all_goals first
    | exact ht
    | (simp only [Bool.and_eq_true, decide_eq_true_eq]; simp at *; omega)

theorem front_two {a b : Nat} (ha : 0xC2 ≤ a) (ha' : a < 0xE0) (hb : 0x80 ≤ b) (hb' : b ≤ 0xBF) (r : Bytes) :
    front (UInt8.ofNat a :: UInt8.ofNat b :: r) = .char (Char.ofNat ((a - 0xC0) * 64 + (b - 0x80))) r := by
  have ea := toNat_byte (n := a) (by omega)
  have hs := secondOk_byte (a := a) (by omega) hb hb' (by omega) (by omega) (by omega) (by omega)
  have h2 : UInt8.ofNat a < 0xE0 := by rw [UInt8.lt_iff_toNat_lt, ea]; exact ha'
  obtain ⟨h0, h1⟩ := front_lead ha (by omega)
  simp only [front, h0, h1, if_false, hs, Bool.not_true, Bool.false_eq_true, h2, if_true, ea,
    tailBits_byte hb']

theorem front_three {a b c : Nat} (ha : 0xE0 ≤ a) (ha' : a < 0xF0) (hb : 0x80 ≤ b) (hb' : b ≤ 0xBF)
    (h0 : a = 0xE0 → 0xA0 ≤ b) (h1 : a = 0xED → b ≤ 0x9F) (hc : 0x80 ≤ c) (hc' : c ≤ 0xBF) (r : Bytes) :
    front (UInt8.ofNat a :: UInt8.ofNat b :: UInt8.ofNat c :: r)
      = .char (Char.ofNat (((a - 0xE0) * 64 + (b - 0x80)) * 64 + (c - 0x80))) r := by
  have ea := toNat_byte (n := a) (by omega)
  have hs := secondOk_byte (a := a) (by omega) hb hb' h0 h1 (by omega) (by omega)
  have h2 : ¬ UInt8.ofNat a < 0xE0 := by rw [UInt8.lt_iff_toNat_lt, ea]; exact Nat.not_lt.2 ha
  have h3 : UInt8.ofNat a < 0xF0 := by rw [UInt8.lt_iff_toNat_lt, ea]; exact ha'
  obtain ⟨l0, l1⟩ := front_lead (a := a) (by omega) (by omega)
  simp only [front, l0, l1, if_false, hs, Bool.not_true, Bool.false_eq_true, h2, h3, if_true, ea,
    tailBits_byte hb', tailBits_byte hc', isTail_byte hc hc']

theorem front_four {a b c d : Nat} (ha : 0xF0 ≤ a) (ha' : a ≤ 0xF4) (hb : 0x80 ≤ b) (hb' : b ≤ 0xBF)
    (h0 : a = 0xF0 → 0x90 ≤ b) (h1 : a = 0xF4 → b ≤ 0x8F) (hc : 0x80 ≤ c) (hc' : c ≤ 0xBF)
    (hd : 0x80 ≤ d) (hd' : d ≤ 0xBF) (r : Bytes) :
    front (UInt8.ofNat a :: UInt8.ofNat b :: UInt8.ofNat c :: UInt8.ofNat d :: r)
      = .char (Char.ofNat ((((a - 0xF0) * 64 + (b - 0x80)) * 64 + (c - 0x80)) * 64 + (d - 0x80))) r := by
  have ea := toNat_byte (n := a) (by omega)
  have hs := secondOk_byte (a := a) (by omega) hb hb' (by omega) (by omega) h0 h1
  have h2 : ¬ UInt8.ofNat a < 0xE0 := by rw [UInt8.lt_iff_toNat_lt, ea]; simp; omega
  have h3 : ¬ UInt8.ofNat a < 0xF0 := by rw [UInt8.lt_iff_toNat_lt, ea]; simp; omega
  obtain ⟨l0, l1⟩ := front_lead (a := a) (by omega) (by omega)
  simp only [front, l0, l1, if_false, hs, Bool.not_true, Bool.false_eq_true, h2, h3, ea,
    tailBits_byte hb', tailBits_byte hc', tailBits_byte hd', isTail_byte hc hc', isTail_byte hd hd']

/-- The bytes of a character are read as that character, whatever comes behind them. -/
theorem front_encodeChar (c : Char) (r : Bytes) : front (String.utf8EncodeChar c ++ r) = .char c r := by
  have hv : c.val.toNat < 0xD800 ∨ 0xDFFF < c.val.toNat ∧ c.val.toNat < 0x110000 := c.valid
  have hc : Char.ofNat c.val.toNat = c := Char.ofNat_toNat c
  unfold String.utf8EncodeChar
  generalize c.val.toNat = v at hv hc
  dsimp only
  split
  · rw [List.singleton_append, front_one (by omega), hc]
  · split
    · simp only [List.cons_append, List.nil_append]
      rw [front_two (by omega) (by omega) (by omega) (by omega), ← hc]
      exact congrArg (fun n => Front.char (Char.ofNat n) r) (by omega)
    · split
      · simp only [List.cons_append, List.nil_append]
        rw [front_three (by omega) (by omega) (by omega) (by omega) (by omega) (by omega) (by omega)
          (by omega), ← hc]
        exact congrArg (fun n => Front.char (Char.ofNat n) r) (by omega)
      · simp only [List.cons_append, List.nil_append]
        rw [front_four (by omega) (by omega) (by omega) (by omega) (by omega) (by omega) (by omega)
          (by omega) (by omega) (by omega), ← hc]
        exact congrArg (fun n => Front.char (Char.ofNat n) r) (by omega)

/-! ## Texts -/

theorem decodeFrom_of_char {s r : Bytes} {c : Char} (h : front s = .char c r) (i : Nat) :
    decodeFrom i s = (decodeFrom (i + (s.length - r.length)) r).map (c :: ·) := by
  rw [decodeFrom]
  split <;> simp_all

@[simp] theorem decodeFrom_nil (i : Nat) : decodeFrom i [] = .ok [] := by
  simp [decodeFrom, front]

theorem encode_cons (c : Char) (s : List Char) : encode (c :: s) = String.utf8EncodeChar c ++ encode s := by
  simp [encode]

/-- The bytes of a text are read as that text, and reading goes on behind them. -/
theorem decodeFrom_encode_append (s : List Char) (t : Bytes) (i : Nat) :
    decodeFrom i (encode s ++ t) = (decodeFrom (i + (encode s).length) t).map (s ++ ·) := by
  induction s generalizing i with
  | nil => cases h : decodeFrom i t <;> simp [h, Except.map]
  | cons c s ih =>
    rw [encode_cons, List.append_assoc, decodeFrom_of_char (front_encodeChar c _), ih, List.length_append,
      List.length_append, List.length_append]
    rw [show i + ((String.utf8EncodeChar c).length + ((encode s).length + t.length)
        - ((encode s).length + t.length)) + (encode s).length
      = i + ((String.utf8EncodeChar c).length + (encode s).length) by omega]
    cases decodeFrom (i + ((String.utf8EncodeChar c).length + (encode s).length)) t <;> rfl

theorem decodeFrom_encode (s : List Char) (i : Nat) : decodeFrom i (encode s) = .ok s := by
  have := decodeFrom_encode_append s [] i
  simpa [Except.map] using this

/-- The bytes of a string spell that string. -/
theorem toString?_ofString (s : String) : toString? (ofString s) = some s := by
  rw [toString?, decode?, ofString, decodeFrom_encode]
  show some (String.ofList s.toList) = some s
  rw [String.ofList_toList]

/-! ## Bytes that are no text -/

/-- Nothing that is a character stands in front. -/
def Faulty (s : Bytes) : Prop :=
  front s = .cut ∨ ∃ n r, front s = .illFormed n r

theorem Faulty.decodeFrom {s : Bytes} (h : Faulty s) (i : Nat) : ∃ f, decodeFrom i s = .error f := by
  rw [Utf8.decodeFrom]
  rcases h with h | ⟨n, r, h⟩ <;> split <;> simp_all

/-- What stands in front is found by its own bytes. -/
theorem front_append_of_char {s r : Bytes} {c : Char} (h : front s = .char c r) (t : Bytes) :
    front (s ++ t) = .char c (r ++ t) := by
  rcases s with _ | ⟨a, s⟩
  · simp [front] at h
  simp only [front, List.cons_append] at h ⊢
  by_cases h0 : a < 0x80
  · simp only [if_pos h0, Front.char.injEq] at h ⊢
    obtain ⟨rfl, rfl⟩ := h
    exact ⟨rfl, rfl⟩
  by_cases h1 : (a < 0xC2 || 0xF4 < a) = true
  · simp only [if_neg h0, if_pos h1] at h
    simp at h
  simp only [if_neg h0, if_neg h1] at h ⊢
  rcases s with _ | ⟨b, s⟩
  · simp at h
  simp only [List.cons_append] at h ⊢
  by_cases h2 : (!secondOk a b) = true
  · simp only [if_pos h2] at h
    simp at h
  simp only [if_neg h2] at h ⊢
  by_cases h3 : a < 0xE0
  · simp only [if_pos h3, Front.char.injEq] at h ⊢
    obtain ⟨rfl, rfl⟩ := h
    exact ⟨rfl, rfl⟩
  simp only [if_neg h3] at h ⊢
  rcases s with _ | ⟨c', s⟩
  · simp at h
  simp only [List.cons_append] at h ⊢
  by_cases h4 : (!isTail c') = true
  · simp only [if_pos h4] at h
    simp at h
  simp only [if_neg h4] at h ⊢
  by_cases h5 : a < 0xF0
  · simp only [if_pos h5, Front.char.injEq] at h ⊢
    obtain ⟨rfl, rfl⟩ := h
    exact ⟨rfl, rfl⟩
  simp only [if_neg h5] at h ⊢
  rcases s with _ | ⟨d, s⟩
  · simp at h
  simp only [List.cons_append] at h ⊢
  by_cases h6 : (!isTail d) = true
  · simp only [if_pos h6] at h
    simp at h
  simp only [if_neg h6, Front.char.injEq] at h ⊢
  obtain ⟨rfl, rfl⟩ := h
  exact ⟨rfl, rfl⟩

/-- Bytes that are no character do not become one when others follow afresh. -/
theorem Faulty.append {s t : Bytes} (h : Faulty s) (ht : Fresh t) : Faulty (s ++ t) := by
  have hs : ∀ a x t', t = x :: t' → secondOk a x = false := by
    rintro a x t' rfl
    exact not_secondOk a ((fresh_cons x t').1 ht)
  have hx : ∀ x t', t = x :: t' → isTail x = false := by
    rintro x t' rfl
    exact not_isTail ((fresh_cons x t').1 ht)
  unfold Faulty at h ⊢
  rcases s with _ | ⟨a, s⟩
  · simp [front] at h
  simp only [front, List.cons_append] at h ⊢
  by_cases h0 : a < 0x80
  · simp [h0] at h
  by_cases h1 : (a < 0xC2 || 0xF4 < a) = true
  · exact .inr ⟨1, s ++ t, by simp only [if_neg h0, if_pos h1]⟩
  simp only [if_neg h0, if_neg h1] at h ⊢
  rcases s with _ | ⟨b, s⟩
  · rcases t with _ | ⟨x, t⟩
    · exact .inl rfl
    · exact .inr ⟨1, x :: t, by simp [hs a x t rfl]⟩
  simp only [List.cons_append] at h ⊢
  by_cases h2 : (!secondOk a b) = true
  · exact .inr ⟨1, b :: (s ++ t), by simp only [if_pos h2]⟩
  by_cases h3 : a < 0xE0
  · simp [h2, h3] at h
  simp only [if_neg h2, if_neg h3] at h ⊢
  rcases s with _ | ⟨c, s⟩
  · rcases t with _ | ⟨x, t⟩
    · exact .inl rfl
    · exact .inr ⟨2, x :: t, by simp [hx x t rfl]⟩
  simp only [List.cons_append] at h ⊢
  by_cases h4 : (!isTail c) = true
  · exact .inr ⟨2, c :: (s ++ t), by simp only [if_pos h4]⟩
  by_cases h5 : a < 0xF0
  · simp [h4, h5] at h
  simp only [if_neg h4, if_neg h5] at h ⊢
  rcases s with _ | ⟨d, s⟩
  · rcases t with _ | ⟨x, t⟩
    · exact .inl rfl
    · exact .inr ⟨3, x :: t, by simp [hx x t rfl]⟩
  simp only [List.cons_append] at h ⊢
  by_cases h6 : (!isTail d) = true
  · exact .inr ⟨3, d :: (s ++ t), by simp only [if_pos h6]⟩
  · simp [h6] at h

/-- Some bytes are torn if they are no text, whatever comes behind them afresh. -/
def Torn (b : Bytes) : Prop :=
  ∀ t, Fresh t → ∀ i, ∃ f, decodeFrom i (b ++ t) = .error f

theorem Faulty.torn {b : Bytes} (h : Faulty b) : Torn b :=
  fun _ ht i => (h.append ht).decodeFrom i

theorem Torn.encode_append {b : Bytes} (h : Torn b) (s : List Char) : Torn (encode s ++ b) := by
  intro t ht i
  obtain ⟨f, hf⟩ := h t ht (i + (encode s).length)
  exact ⟨f, by rw [List.append_assoc, decodeFrom_encode_append, hf]; rfl⟩

/-- Bytes are read as a text from their front on, so that one goes on behind them as if they were not
there; or they are torn. -/
theorem decodeFrom_append (b : Bytes) :
    (∃ s, (∀ i, decodeFrom i b = .ok s)
        ∧ ∀ i t, decodeFrom i (b ++ t) = (decodeFrom (i + b.length) t).map (s ++ ·)) ∨ Torn b := by
  induction hn : b.length using Nat.strongRecOn generalizing b with
  | ind n ih =>
    subst hn
    cases hf : front b with
    | finished =>
      obtain rfl : b = [] := by
        rcases b with _ | ⟨a, b⟩
        · rfl
        · simp only [front] at hf
          repeat' split at hf
          all_goals simp at hf
      refine .inl ⟨[], fun i => decodeFrom_nil i, fun i t => ?_⟩
      cases h : decodeFrom i t <;> simp [h, Except.map]
    | cut => exact .inr (Faulty.torn (.inl hf))
    | illFormed k r => exact .inr (Faulty.torn (.inr ⟨k, r, hf⟩))
    | char c r =>
      have hr := front_char_length hf
      rcases ih r.length (by omega) r rfl with ⟨s, hs, hst⟩ | ht
      · refine .inl ⟨c :: s, fun i => by rw [decodeFrom_of_char hf, hs]; rfl, fun i t => ?_⟩
        have he : i + ((b ++ t).length - (r ++ t).length) + r.length = i + b.length := by
          simp only [List.length_append]
          omega
        rw [decodeFrom_of_char (front_append_of_char hf t), hst, he]
        cases decodeFrom (i + b.length) t <;> rfl
      · refine .inr fun t hfr i => ?_
        obtain ⟨f, hf'⟩ := ht t hfr (i + ((b ++ t).length - (r ++ t).length))
        exact ⟨f, by rw [decodeFrom_of_char (front_append_of_char hf t), hf']; rfl⟩

/-- Bytes that spell a text. -/
def IsText (b : Bytes) : Prop :=
  ∃ s, decodeFrom 0 b = .ok s

@[simp] theorem isText_nil : IsText [] := ⟨[], decodeFrom_nil 0⟩

theorem isText_encode (s : List Char) : IsText (encode s) := ⟨s, decodeFrom_encode s 0⟩

theorem isText_or_torn (b : Bytes) : (∃ s, ∀ i, decodeFrom i b = .ok s) ∨ Torn b := by
  rcases decodeFrom_append b with ⟨s, hs, -⟩ | ht
  · exact .inl ⟨s, hs⟩
  · exact .inr ht

theorem Torn.not_isText {b : Bytes} (h : Torn b) : ¬ IsText b := by
  rintro ⟨s, hs⟩
  obtain ⟨f, hf⟩ := h [] fresh_nil 0
  rw [List.append_nil, hs] at hf
  cases hf

theorem Torn.append {b t : Bytes} (h : Torn b) (ht : Fresh t) : Torn (b ++ t) := by
  intro u hu i
  rw [List.append_assoc]
  refine h (t ++ u) ?_ i
  cases t with
  | nil => exact hu
  | cons x t => simpa using ht

theorem isText_append_left {b : Bytes} (hb : IsText b) (t : Bytes) : IsText (b ++ t) ↔ IsText t := by
  rcases decodeFrom_append b with ⟨s, hs, hst⟩ | ht
  · rcases isText_or_torn t with ⟨u, hu⟩ | hu
    · exact iff_of_true ⟨s ++ u, by rw [hst, hu]; rfl⟩ ⟨u, hu 0⟩
    · refine iff_of_false ?_ hu.not_isText
      rintro ⟨v, hv⟩
      obtain ⟨f, hf⟩ := hu [] fresh_nil (0 + b.length)
      rw [List.append_nil] at hf
      rw [hst, hf] at hv
      cases hv
  · exact absurd hb ht.not_isText

/-- Two pieces spell a text when each does, if the second starts afresh. -/
theorem isText_append {b t : Bytes} (ht : Fresh t) : IsText (b ++ t) ↔ IsText b ∧ IsText t := by
  rcases isText_or_torn b with ⟨s, hs⟩ | hb
  · have hb : IsText b := ⟨s, hs 0⟩
    rw [isText_append_left hb, and_iff_right hb]
  · exact iff_of_false (hb.append ht).not_isText fun h => hb.not_isText h.1

/-! ## Bytes that were cut off -/

section
variable {a : Nat}

theorem faulty_one (h : 0xC2 ≤ a) (h' : a ≤ 0xF4) : Faulty [UInt8.ofNat a] := by
  obtain ⟨l0, l1⟩ := front_lead h h'
  exact .inl (by simp only [front, l0, l1, if_false, Bool.false_eq_true])

theorem faulty_two (h : 0xE0 ≤ a) (h' : a ≤ 0xF4) (b : UInt8) : Faulty [UInt8.ofNat a, b] := by
  obtain ⟨l0, l1⟩ := front_lead (a := a) (by omega) h'
  have l2 : ¬ UInt8.ofNat a < 0xE0 := by
    rw [UInt8.lt_iff_toNat_lt, toNat_byte (by omega)]; exact Nat.not_lt.2 h
  unfold Faulty
  simp only [front, l0, l1, l2, if_false, Bool.false_eq_true]
  by_cases hb : secondOk (UInt8.ofNat a) b = true
  · exact .inl (by simp [hb])
  · exact .inr ⟨1, [b], by simp [hb]⟩

theorem faulty_three (h : 0xF0 ≤ a) (h' : a ≤ 0xF4) (b c : UInt8) : Faulty [UInt8.ofNat a, b, c] := by
  obtain ⟨l0, l1⟩ := front_lead (a := a) (by omega) h'
  have e := toNat_byte (n := a) (by omega)
  have l2 : ¬ UInt8.ofNat a < 0xE0 := by rw [UInt8.lt_iff_toNat_lt, e]; simp; omega
  have l3 : ¬ UInt8.ofNat a < 0xF0 := by rw [UInt8.lt_iff_toNat_lt, e]; simp; omega
  unfold Faulty
  simp only [front, l0, l1, l2, l3, if_false, Bool.false_eq_true]
  by_cases hb : secondOk (UInt8.ofNat a) b = true
  · by_cases hc : isTail c = true
    · exact .inl (by simp [hb, hc])
    · exact .inr ⟨2, [c], by simp [hb, hc]⟩
  · exact .inr ⟨1, [b, c], by simp [hb]⟩

end

/-- A character that was cut off. -/
theorem torn_of_cut {c : Char} {b u : Bytes} (h : String.utf8EncodeChar c = b ++ u) (hb : b ≠ [])
    (hu : u ≠ []) : Torn b := by
  refine Faulty.torn ?_
  have hv : c.val.toNat < 0x110000 := by
    have : c.val.toNat < 0xD800 ∨ 0xDFFF < c.val.toNat ∧ c.val.toNat < 0x110000 := c.valid
    omega
  unfold String.utf8EncodeChar at h
  generalize c.val.toNat = v at h hv
  dsimp only at h
  obtain ⟨x, b, rfl⟩ := List.exists_cons_of_ne_nil hb
  split at h
  · simp_all
  · split at h
    · obtain ⟨rfl, h⟩ := List.cons.inj h
      obtain rfl : b = [] := by
        rcases b with _ | ⟨y, b⟩
        · rfl
        · simp_all
      exact faulty_one (by omega) (by omega)
    · split at h
      · obtain ⟨rfl, h⟩ := List.cons.inj h
        rcases b with _ | ⟨y, _ | ⟨z, b⟩⟩
        · exact faulty_one (by omega) (by omega)
        · exact faulty_two (by omega) (by omega) y
        · simp_all
      · obtain ⟨rfl, h⟩ := List.cons.inj h
        rcases b with _ | ⟨y, _ | ⟨z, _ | ⟨w, b⟩⟩⟩
        · exact faulty_one (by omega) (by omega)
        · exact faulty_two (by omega) (by omega) y
        · exact faulty_three (by omega) (by omega) y z
        · simp_all

/-- The bytes of a text that were cut off anywhere are those of a shorter text, or torn. -/
theorem take_encode (s : List Char) (n : Nat) :
    (∃ k, (encode s).take n = encode (s.take k)) ∨ Torn ((encode s).take n) := by
  induction s generalizing n with
  | nil => exact .inl ⟨0, by simp⟩
  | cons c s ih =>
    rw [encode_cons, List.take_append]
    rcases Nat.lt_or_ge n (String.utf8EncodeChar c).length with h | h
    · rw [show n - (String.utf8EncodeChar c).length = 0 by omega, List.take_zero, List.append_nil]
      rcases Nat.eq_zero_or_pos n with rfl | hn
      · exact .inl ⟨0, by simp⟩
      · refine .inr (torn_of_cut (List.take_append_drop n _).symm ?_ ?_)
        · simp only [ne_eq, List.take_eq_nil_iff, not_or]
          exact ⟨by omega, fun e => by simp [e] at h⟩
        · simpa using h
    · rw [List.take_of_length_le h]
      rcases ih (n - (String.utf8EncodeChar c).length) with ⟨k, hk⟩ | ht
      · exact .inl ⟨k + 1, by rw [hk, List.take_succ_cons, encode_cons]⟩
      · have := ht.encode_append [c]
        exact .inr (by simpa [encode_cons] using this)

/-! ## Reading leniently -/

theorem decodeWith_of_char (mark : Char) {s r : Bytes} {c : Char} (h : front s = .char c r) :
    decodeWith mark s = c :: decodeWith mark r := by
  rw [decodeWith]
  split <;> simp_all

theorem decodeWith_of_finished (mark : Char) {s : Bytes} (h : front s = .finished) : decodeWith mark s = [] := by
  rw [decodeWith]
  split <;> simp_all

/-- Bytes that spell a text are read as that text, whatever would stand for ill-formed pieces. -/
theorem decodeWith_of_decodeFrom (mark : Char) {index : Nat} {s : Bytes} {cs : List Char}
    (h : decodeFrom index s = .ok cs) : decodeWith mark s = cs := by
  fun_induction decodeFrom index s generalizing cs with
  | case1 index s hf =>
    rw [decodeWith_of_finished mark hf, Except.ok.inj h]
  | case2 index s c r hf hlt ih =>
    rw [decodeWith_of_char mark hf]
    cases hr : decodeFrom (index + (s.length - r.length)) r with
    | error f =>
      rw [hr] at h
      cases h
    | ok cs' =>
      rw [hr] at h
      rw [ih hr, ← Except.ok.inj h]
  | case3 index s n r hf => cases h
  | case4 index s hf => cases h

theorem decodeLossy_of_toString? {s : Bytes} {text : String} (h : toString? s = some text) :
    String.ofList (decodeLossy s) = text := by
  obtain ⟨cs, hcs, rfl⟩ := Option.map_eq_some_iff.1 h
  rw [decode?] at hcs
  cases hd : decodeFrom 0 s with
  | error f =>
    rw [hd] at hcs
    cases hcs
  | ok cs' =>
    rw [hd] at hcs
    rw [decodeLossy, decodeWith_of_decodeFrom _ hd, ← Option.some.inj hcs]

/-! ## Line feeds -/

theorem feed_mem_encodeChar {c : Char} : (10 : UInt8) ∈ String.utf8EncodeChar c ↔ c = '\n' := by
  have hc : Char.ofNat c.val.toNat = c := Char.ofNat_toNat c
  have hb : ∀ n, 0x80 ≤ n → n < 256 → (10 : UInt8) ≠ UInt8.ofNat n := by
    intro n h h' e
    have := congrArg UInt8.toNat e
    rw [toNat_byte h'] at this
    simp at this
    omega
  constructor
  · intro h
    unfold String.utf8EncodeChar at h
    generalize c.val.toNat = v at h hc
    dsimp only at h
    split at h
    · have := congrArg UInt8.toNat (List.mem_singleton.1 h)
      rw [toNat_byte (by omega)] at this
      obtain rfl : 10 = v := this
      exact hc.symm
    · repeat' split at h
      all_goals
        refine absurd h ?_
        simp only [List.mem_cons, List.not_mem_nil, or_false, not_or]
        and_intros <;> exact hb _ (by omega) (by omega)
  · rintro rfl
    decide

theorem feed_mem_encode {s : List Char} : (10 : UInt8) ∈ encode s ↔ '\n' ∈ s := by
  simp [encode, feed_mem_encodeChar]

end Captioning.Utf8
