import Captioning.Json.Reader
import Captioning.Proofs.JsonSpelling
/-!
# Values that were read, and reading them again

A reader of any value leaves every object ordered by name and no more brackets open than it may open, and keeps
integers integers (`read_value`, `Value.Fits`, `Value.Integral`). What such a value is written as is read as that
value again (`readValue_draft`).
-/

namespace Captioning.Json

/-! ## Ordered members -/

/-- Members in the order of their names, each name once. -/
def Ordered (ms : List (String × Value)) : Prop :=
  ms.Pairwise fun m m' => m.1 < m'.1

theorem mem_putMember {k : String} {v : Value} {ms : List (String × Value)} {m : String × Value}
    (h : m ∈ putMember k v ms) : m = (k, v) ∨ m ∈ ms := by
  induction ms with
  | nil => exact .inl (List.mem_singleton.1 h)
  | cons m' ms ih =>
    rw [putMember] at h
    split at h
    · rcases List.mem_cons.1 h with h | h
      · exact .inl h
      · exact .inr (List.mem_cons_of_mem _ h)
    split at h
    · rcases List.mem_cons.1 h with h | h
      · exact .inl h
      · exact .inr h
    · rcases List.mem_cons.1 h with rfl | h
      · exact .inr List.mem_cons_self
      · exact (ih h).imp_right (List.mem_cons_of_mem _)

theorem Ordered.putMember {ms : List (String × Value)} (h : Ordered ms) (k : String) (v : Value) :
    Ordered (putMember k v ms) := by
  induction ms with
  | nil => exact List.pairwise_singleton _ _
  | cons m ms ih =>
    obtain ⟨j, w⟩ := m
    obtain ⟨hj, hms⟩ := List.pairwise_cons.1 h
    rw [Json.putMember]
    split
    · next he =>
      obtain rfl : k = j := eq_of_beq he
      exact List.pairwise_cons.2 ⟨hj, hms⟩
    split
    · next hl =>
      refine List.pairwise_cons.2 ⟨fun m hm => ?_, h⟩
      rcases List.mem_cons.1 hm with rfl | hm
      · exact hl
      · exact String.lt_trans hl (hj m hm)
    · next he hl =>
      have hne : j ≠ k := fun e => he (beq_iff_eq.2 e.symm)
      have hjk : j < k := Std.lt_of_le_of_ne (Std.not_lt.1 hl) hne
      refine List.pairwise_cons.2 ⟨fun m hm => ?_, ih hms⟩
      rcases mem_putMember hm with rfl | hm
      · exact hjk
      · exact hj m hm

/-- A member behind all others in name is put behind them. -/
theorem putMember_last {k : String} (v : Value) {ms : List (String × Value)} (h : ∀ m ∈ ms, m.1 < k) :
    putMember k v ms = ms ++ [(k, v)] := by
  induction ms with
  | nil => rfl
  | cons m ms ih =>
    obtain ⟨j, w⟩ := m
    have hj : j < k := h (j, w) List.mem_cons_self
    have hne : (k == j) = false := beq_eq_false_iff_ne.2 fun e => String.lt_irrefl j (e ▸ hj)
    rw [putMember, if_neg (by simp [hne]), if_neg (String.lt_asymm hj),
      ih fun m hm => h m (List.mem_cons_of_mem _ hm), List.cons_append]

/-! ## What a reader leaves -/

mutual

/-- A value in which every object is ordered, and for which fewer than `depth` brackets are opened at once. -/
def Value.Fits (depth : Nat) : Value → Prop
  | .array items => 1 < depth ∧ FitItems (depth - 1) items
  | .object members => 1 < depth ∧ Ordered members ∧ FitMembers (depth - 1) members
  | _ => True

/-- Items all of which fit. -/
def FitItems (depth : Nat) : List Value → Prop
  | [] => True
  | v :: more => v.Fits depth ∧ FitItems depth more

/-- Members all of which fit. -/
def FitMembers (depth : Nat) : List (String × Value) → Prop
  | [] => True
  | (_, v) :: more => v.Fits depth ∧ FitMembers depth more

end

theorem fitMembers_iff {depth : Nat} {ms : List (String × Value)} :
    FitMembers depth ms ↔ ∀ m ∈ ms, m.2.Fits depth := by
  induction ms with
  | nil => simp [FitMembers]
  | cons m ms ih => simp [FitMembers, ih]

theorem integralItems_iff {vs : List Value} : IntegralItems vs ↔ ∀ v ∈ vs, v.Integral := by
  induction vs with
  | nil => simp [IntegralItems]
  | cons v vs ih => simp [IntegralItems, ih]

theorem integralMembers_iff {ms : List (String × Value)} : IntegralMembers ms ↔ ∀ m ∈ ms, m.2.Integral := by
  induction ms with
  | nil => simp [IntegralMembers]
  | cons m ms ih => simp [IntegralMembers, ih]

theorem FitMembers.putMember {depth : Nat} {ms : List (String × Value)} (h : FitMembers depth ms) (k : String)
    {v : Value} (hv : v.Fits depth) : FitMembers depth (putMember k v ms) := by
  rw [fitMembers_iff] at h ⊢
  intro m hm
  rcases mem_putMember hm with rfl | hm
  · exact hv
  · exact h m hm

theorem IntegralMembers.putMember {ms : List (String × Value)} (h : IntegralMembers ms) (k : String) {v : Value}
    (hv : v.Integral) : IntegralMembers (putMember k v ms) := by
  rw [integralMembers_iff] at h ⊢
  intro m hm
  rcases mem_putMember hm with rfl | hm
  · exact hv
  · exact h m hm

/-! ## Integers as they are written -/

/-- An integer of sixty-four bits, with a sign or without. -/
def Numeral.Integral (n : Numeral) : Prop :=
  n.part = none ∧ n.exponent = none
    ∧ if n.negative then Decimal.valueOf n.whole ≤ 2 ^ 63 else Decimal.valueOf n.whole < 2 ^ 64

mutual

/-- All numbers of a draft are integers of sixty-four bits. -/
def Draft.Integral : Draft → Prop
  | .number n => n.Integral
  | .array items _ => IntegralItemDrafts items
  | .object members _ => IntegralMemberDrafts members
  | _ => True

/-- All numbers of some items are integers of sixty-four bits. -/
def IntegralItemDrafts : List Draft → Prop
  | [] => True
  | d :: more => d.Integral ∧ IntegralItemDrafts more

/-- All numbers of some members are integers of sixty-four bits. -/
def IntegralMemberDrafts : List (Except Fault (List Char) × Draft) → Prop
  | [] => True
  | (_, d) :: more => d.Integral ∧ IntegralMemberDrafts more

end

instance (n : Numeral) : Decidable n.Integral :=
  inferInstanceAs (Decidable (n.part = none ∧ n.exponent = none
    ∧ if n.negative then Decimal.valueOf n.whole ≤ 2 ^ 63 else Decimal.valueOf n.whole < 2 ^ 64))

mutual

/-- Whether all numbers of a draft are integers can be found out. -/
def Draft.decIntegral : (d : Draft) → Decidable d.Integral
  | .number n => inferInstanceAs (Decidable n.Integral)
  | .array items _ => decIntegralItems items
  | .object members _ => decIntegralMembers members
  | .null | .bool _ | .string _ | .broken _ _ => .isTrue trivial

/-- Whether all numbers of some items are integers can be found out. -/
def decIntegralItems : (ds : List Draft) → Decidable (IntegralItemDrafts ds)
  | [] => .isTrue trivial
  | d :: more => @instDecidableAnd _ _ d.decIntegral (decIntegralItems more)

/-- Whether all numbers of some members are integers can be found out. -/
def decIntegralMembers : (ds : List (Except Fault (List Char) × Draft)) → Decidable (IntegralMemberDrafts ds)
  | [] => .isTrue trivial
  | (_, d) :: more => @instDecidableAnd _ _ d.decIntegral (decIntegralMembers more)

end

instance (d : Draft) : Decidable d.Integral := d.decIntegral

/-- A text all of whose numbers are integers of sixty-four bits, with a sign or without. -/
structure OnlyIntegers (text : String) : Prop where
  draft : (Draft.ofText text.toList).1.Integral

instance (text : String) : Decidable (OnlyIntegers text) :=
  decidable_of_iff (Draft.ofText text.toList).1.Integral ⟨OnlyIntegers.mk, OnlyIntegers.draft⟩

theorem integralItemDrafts_iff {ds : List Draft} : IntegralItemDrafts ds ↔ ∀ d ∈ ds, d.Integral := by
  induction ds with
  | nil => simp [IntegralItemDrafts]
  | cons d ds ih => simp [IntegralItemDrafts, ih]

/-- Of zeros all digits count. -/
theorem leadingDigits_zero {ds : List Char} (h : Decimal.valueOf ds = 0) (count : Nat) :
    leadingDigits 0 count ds = (0, count + ds.length) := by
  have later : ∀ (ds : List Char) (n : Nat), n ≤ ds.foldl (fun n c => n * 10 + (c.toNat - '0'.toNat)) n := by
    intro ds
    induction ds with
    | nil => exact fun n => Nat.le_refl n
    | cons c ds ih => exact fun n => Nat.le_trans (show n ≤ n * 10 + (c.toNat - '0'.toNat) by omega) (ih _)
  induction ds generalizing count with
  | nil => rfl
  | cons c ds ih =>
    rw [Decimal.valueOf, List.foldl_cons] at h
    have hc : 0 * 10 + (c.toNat - '0'.toNat) = 0 := Nat.le_zero.1 (Nat.le_trans (later ds _) (Nat.le_of_eq h))
    rw [hc] at h
    have hc' : 0 * 10 + (c.toNat - 48) = 0 := hc
    rw [leadingDigits, hc', if_pos (by decide), ih h, List.length_cons]
    congr 1
    omega

theorem scaled?_zero : (scaled? 0 0).map (fun x => -x) = some (-0.0) := rfl

/-- What an integer is read as; zero with a sign is read as a double. -/
theorem Numeral.Integral.read {n : Numeral} (h : n.Integral) : n.read
    = .ok (if n.negative then
        (if Decimal.valueOf n.whole = 0 then .double (-0.0) else .integer (-(Decimal.valueOf n.whole : Int)))
      else .integer (Decimal.valueOf n.whole)) := by
  obtain ⟨negative, whole, part, exponent⟩ := n
  obtain ⟨rfl, rfl, hb⟩ : part = none ∧ exponent = none ∧ _ := h
  cases negative with
  | false =>
    have hlt : decide (Decimal.valueOf whole < Nat.pow 2 64) = true := decide_eq_true hb
    unfold Numeral.read
    dsimp only
    rw [hlt]
    rfl
  | true =>
    have hle : decide (Decimal.valueOf whole ≤ Nat.pow 2 63) = true := decide_eq_true hb
    by_cases hz : Decimal.valueOf whole = 0
    · obtain ⟨x, hx, hneg⟩ := Option.map_eq_some_iff.1 scaled?_zero
      have hl := leadingDigits_zero hz 0
      simp [Numeral.read, hz, hl, hx, hneg]
    · have hpos : decide (0 < Decimal.valueOf whole) = true := decide_eq_true (Nat.pos_of_ne_zero hz)
      unfold Numeral.read
      dsimp only
      rw [hle, hpos, if_neg hz, Bool.not_true, Bool.and_false]
      rfl

theorem Numeral.Integral.toValue {n : Numeral} {x : Number} (h : n.Integral) (hx : n.read = .ok x) :
    x.toValue.Integral := by
  rw [h.read, Except.ok.injEq] at hx
  subst hx
  have hb := h.2.2
  cases hn : n.negative with
  | false =>
    rw [hn, if_neg Bool.false_ne_true] at hb
    simp only [Bool.false_eq_true, if_false, Number.toValue, Value.Integral]
    omega
  | true =>
    rw [hn, if_pos rfl] at hb
    by_cases hz : Decimal.valueOf n.whole = 0
    · simp [hz, Number.toValue, Value.Integral]
    · simp only [hz, if_true, if_false, Number.toValue, Value.Integral]
      omega

/-! ## Reading any value -/

theorem openBracket_eq_ok {depth below : Nat} (h : openBracket depth = .ok below) :
    1 < depth ∧ below = depth - 1 := by
  rw [openBracket] at h
  split at h
  · cases h
  · exact ⟨by omega, (Except.ok.inj h).symm⟩

theorem openBracket_of_lt {depth : Nat} (h : 1 < depth) : openBracket depth = .ok (depth - 1) :=
  if_neg (Nat.not_le.2 h)

mutual

/-- What a reader of any value leaves. -/
theorem read_value : ∀ (d : Draft) (depth : Nat) (v : Value), readValue depth d = .ok v →
    v.Fits depth ∧ (d.Integral → v.Integral)
  | .null, _, _, h | .bool _, _, _, h => by
    obtain rfl := Except.ok.inj h
    exact ⟨trivial, fun _ => trivial⟩
  | .number n, _, _, h => by
    rw [readValue] at h
    rcases hn : n.read with f | x
    · rw [hn] at h
      cases h
    · rw [hn] at h
      obtain rfl := Except.ok.inj h
      exact ⟨by cases x <;> trivial, fun hi => Numeral.Integral.toValue hi hn⟩
  | .string content, _, _, h => by
    rcases content with f | s
    · cases h
    · obtain rfl := Except.ok.inj h
      exact ⟨trivial, fun _ => trivial⟩
  | .array items closing, depth, v, h => by
    rw [readValue] at h
    obtain ⟨below, hb, h⟩ := bind_eq_ok.1 h
    obtain ⟨vs, hvs, h⟩ := bind_eq_ok.1 h
    obtain ⟨-, -, h⟩ := bind_eq_ok.1 h
    obtain rfl := Except.ok.inj h
    obtain ⟨hd, rfl⟩ := openBracket_eq_ok hb
    have hi := read_values items (depth - 1) vs hvs
    exact ⟨⟨hd, hi.1⟩, hi.2⟩
  | .object members closing, depth, v, h => by
    rw [readValue] at h
    obtain ⟨below, hb, h⟩ := bind_eq_ok.1 h
    obtain ⟨ms, hms, h⟩ := bind_eq_ok.1 h
    obtain ⟨-, -, h⟩ := bind_eq_ok.1 h
    obtain rfl := Except.ok.inj h
    obtain ⟨hd, rfl⟩ := openBracket_eq_ok hb
    obtain ⟨ho, hf, hi⟩ := read_pairs members (depth - 1) [] ms hms List.Pairwise.nil trivial
    exact ⟨⟨hd, ho, hf⟩, fun hm => hi hm trivial⟩
  | .broken _ _, _, _, h => by cases h

/-- What a reader of any items leaves. -/
theorem read_values : ∀ (ds : List Draft) (depth : Nat) (vs : List Value), readValues depth ds = .ok vs →
    FitItems depth vs ∧ (IntegralItemDrafts ds → IntegralItems vs)
  | [], _, _, h => by
    obtain rfl := Except.ok.inj h
    exact ⟨trivial, fun _ => trivial⟩
  | d :: ds, depth, _, h => by
    rw [readValues] at h
    obtain ⟨v, hv, h⟩ := bind_eq_ok.1 h
    obtain ⟨vs, hvs, h⟩ := bind_eq_ok.1 h
    obtain rfl := Except.ok.inj h
    have h1 := read_value d depth v hv
    have h2 := read_values ds depth vs hvs
    exact ⟨⟨h1.1, h2.1⟩, fun hi => ⟨h1.2 hi.1, h2.2 hi.2⟩⟩

/-- What a reader of any members leaves, if those found before are alike. -/
theorem read_pairs : ∀ (ds : List (Except Fault (List Char) × Draft)) (depth : Nat)
    (found ms : List (String × Value)), readPairs depth ds found = .ok ms → Ordered found → FitMembers depth found →
    Ordered ms ∧ FitMembers depth ms ∧ (IntegralMemberDrafts ds → IntegralMembers found → IntegralMembers ms)
  | [], _, _, _, h, ho, hf => by
    obtain rfl := Except.ok.inj h
    exact ⟨ho, hf, fun _ hi => hi⟩
  | (k, d) :: ds, depth, found, ms, h, ho, hf => by
    rw [readPairs] at h
    obtain ⟨name, -, h⟩ := bind_eq_ok.1 h
    obtain ⟨v, hv, h⟩ := bind_eq_ok.1 h
    obtain ⟨hvf, hvi⟩ := read_value d depth v hv
    obtain ⟨ho', hf', hi'⟩ := read_pairs ds depth _ ms h (ho.putMember _ v) (hf.putMember _ hvf)
    exact ⟨ho', hf', fun hd hi => hi' hd.2 (hi.putMember _ (hvi hd.1))⟩

end

/-! ## Reading again -/

theorem read_integerNumeral {n : Int} (h : -(2 ^ 63) ≤ n ∧ n < 2 ^ 64) :
    (integerNumeral n).read = .ok (.integer n) := by
  have hi : (integerNumeral n).Integral := by
    refine ⟨rfl, rfl, ?_⟩
    by_cases hn : n < 0 <;> simp only [integerNumeral, hn, decide_true, decide_false, if_true, Bool.false_eq_true,
      if_false, Decimal.valueOf_digitsOf] <;> omega
  rw [hi.read]
  by_cases hn : n < 0
  · have hz : n.natAbs ≠ 0 := by omega
    simp only [integerNumeral, hn, decide_true, if_true, Decimal.valueOf_digitsOf, hz, if_false]
    congr 2
    omega
  · simp only [integerNumeral, hn, decide_false, Bool.false_eq_true, if_false, Decimal.valueOf_digitsOf]
    congr 2
    omega

theorem read_zeroNumeral : zeroNumeral.read = .ok (.double (-0.0)) := rfl

mutual

/-- What a value is written as is read as that value. -/
theorem readValue_draft : ∀ (v : Value) (depth : Nat), v.Fits depth → v.Integral → readValue depth v.draft = .ok v
  | .null, _, _, _ | .bool _, _, _, _ => rfl
  | .integer n, _, _, h => by
    simp [Value.draft, readValue, read_integerNumeral h, Except.map, Number.toValue]
  | .double x, _, _, h => by
    obtain rfl : x = -0.0 := h
    simp [draft_zero, readValue, read_zeroNumeral, Except.map, Number.toValue]
  | .string s, _, _, _ => by simp [Value.draft, readValue, Except.map]
  | .array vs, depth, hf, hi => by
    have hvs := readValues_drafts vs (depth - 1) hf.2 hi
    simp [Value.draft, readValue, openBracket_of_lt hf.1, hvs, Closing.wantingItems, bind, Except.bind, pure,
      Except.pure]
  | .object ms, depth, hf, hi => by
    have hms := readPairs_drafts ms (depth - 1) [] hf.2.1 hf.2.2 hi
    simp [Value.draft, readValue, openBracket_of_lt hf.1, hms, Closing.wantingMembers, bind, Except.bind, pure,
      Except.pure]

/-- What items are written as is read as those items. -/
theorem readValues_drafts : ∀ (vs : List Value) (depth : Nat), FitItems depth vs → IntegralItems vs →
    readValues depth (itemDrafts vs) = .ok vs
  | [], _, _, _ => rfl
  | v :: vs, depth, hf, hi => by
    have hv := readValue_draft v depth hf.1 hi.1
    have hvs := readValues_drafts vs depth hf.2 hi.2
    simp [itemDrafts, readValues, hv, hvs, bind, Except.bind, pure, Except.pure]

/-- What members are written as is read as those members, behind the ones found before. -/
theorem readPairs_drafts : ∀ (ms : List (String × Value)) (depth : Nat) (found : List (String × Value)),
    Ordered (found ++ ms) → FitMembers depth ms → IntegralMembers ms →
    readPairs depth (memberDrafts ms) found = .ok (found ++ ms)
  | [], _, found, _, _, _ => by rw [List.append_nil]; rfl
  | (k, v) :: ms, depth, found, ho, hf, hi => by
    have hv := readValue_draft v depth hf.1 hi.1
    have hput := putMember_last v fun m hm => (List.pairwise_append.1 ho).2.2 m hm (k, v) List.mem_cons_self
    have hms := readPairs_drafts ms depth (found ++ [(k, v)]) (by simpa using ho) hf.2 hi.2
    simp [memberDrafts, readPairs, hv, hput, hms, bind, Except.bind]

end

end Captioning.Json
