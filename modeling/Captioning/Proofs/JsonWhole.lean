import Captioning.Proofs.JsonFields
import Mathlib.Data.List.Forall2
/-!
# Whole values

What is read of a text to its end is whole: its brackets are closed, and nothing in it is broken (`whole_of_read`). It is
passed over without objection (`Draft.Whole.pass`), so whether a reader takes it depends only on what the reader wants:
of a list each item (`readList_iff`), of a text that there is but one value (`readText_iff`).
-/

namespace Captioning.Json

mutual

/-- Every bracket of a draft is closed, and nothing in it is broken. -/
def Draft.Whole : Draft → Prop
  | .array items closing => WholeItems items ∧ closing = .closed
  | .object members closing => WholeMembers members ∧ closing = .closed
  | .broken _ _ => False
  | _ => True

def WholeItems : List Draft → Prop
  | [] => True
  | d :: more => d.Whole ∧ WholeItems more

def WholeMembers : List (Except Fault (List Char) × Draft) → Prop
  | [] => True
  | (_, d) :: more => d.Whole ∧ WholeMembers more

end

theorem wholeItems_iff {ds : List Draft} : WholeItems ds ↔ ∀ d ∈ ds, d.Whole := by
  induction ds with
  | nil => simp [WholeItems]
  | cons d ds ih => simp [WholeItems, ih]

/-! ## What is read to its end -/

theorem scanWord_eq_some {d d' : Draft} {w s r : List Char} (h : scanWord d w s = (d', some r)) : d' = d := by
  fun_induction scanWord d w s with
  | case1 => exact (Prod.mk.inj h).1.symm
  | case2 => simp at h
  | case3 w ws c s hc ih => exact ih h
  | case4 => simp at h

theorem leafDraft_whole {c : Char} {r rest : List Char} {d : Draft} (h : leafDraft c r = (d, some rest)) : d.Whole := by
  unfold leafDraft at h
  split at h
  · rw [scanWord_eq_some h]
    trivial
  split at h
  · rw [scanWord_eq_some h]
    trivial
  split at h
  · rw [scanWord_eq_some h]
    trivial
  split at h
  · obtain ⟨n, -, rfl⟩ := numeralDraft_eq_some.1 h
    trivial
  split at h
  · obtain ⟨-, rfl⟩ := literalDraft_eq_some.1 h
    trivial
  · simp at h

/-- What is read to its end is whole. -/
theorem whole_of_read (fuel : Nat) :
    (∀ s d r, readDraft fuel s = (d, some r) → d.Whole)
      ∧ (∀ first s ds c r, readItems fuel first s = (ds, c, some r) → WholeItems ds ∧ c = .closed)
      ∧ (∀ first s ms c r, readMembers fuel first s = (ms, c, some r) → WholeMembers ms ∧ c = .closed) := by
  induction fuel with
  | zero => simp [readDraft, readItems, readMembers]
  | succ fuel ih =>
    obtain ⟨ihd, ihi, ihm⟩ := ih
    refine ⟨fun s d r h => ?_, fun first s ds c r h => ?_, fun first s ms c r h => ?_⟩
    · rcases hs : skipSpace s with _ | ⟨c, q⟩
      · have := readDraft_blank (fuel + 1) hs
        simp [h] at this
      by_cases ha : c = '['
      · subst ha
        rw [readDraft_array _ hs] at h
        obtain ⟨rfl, hr⟩ := Prod.mk.inj h
        exact ihi true q _ _ r (Prod.ext rfl (Prod.ext rfl hr))
      by_cases ho : c = '{'
      · subst ho
        rw [readDraft_object _ hs] at h
        obtain ⟨rfl, hr⟩ := Prod.mk.inj h
        exact ihm true q _ _ r (Prod.ext rfl (Prod.ext rfl hr))
      · rw [readDraft_leaf _ hs ha ho] at h
        exact leafDraft_whole h
    · rw [readItems_succ] at h
      have hw := itemEntry_within first s
      rcases he : itemEntry first s with ⟨c', x⟩ | t <;> rw [he] at h hw
      · obtain ⟨rfl, rfl, rfl⟩ : [] = ds ∧ c' = c ∧ x = some r := by simpa [Entry.read] using h
        exact ⟨trivial, hw.1⟩
      · rcases hd : readDraft fuel t with ⟨d, _ | rest⟩
        · simp [Entry.read, itemAt, hd] at h
        · rw [Entry.read, itemAt_of_some hd] at h
          obtain ⟨rfl, hr⟩ := Prod.mk.inj h
          obtain ⟨hds, hc⟩ := ihi false rest _ c r (Prod.ext rfl hr)
          exact ⟨⟨ihd t d rest hd, hds⟩, hc⟩
    · rw [readMembers_succ] at h
      have hw := memberEntry_within first s
      rcases he : memberEntry first s with ⟨c', x⟩ | t <;> rw [he] at h hw
      · obtain ⟨rfl, rfl, rfl⟩ : [] = ms ∧ c' = c ∧ x = some r := by simpa [Entry.read] using h
        exact ⟨trivial, hw.1⟩
      · rcases hn : (memberName t).2 with d | v
        · simp [Entry.read, hn, memberAt] at h
        rcases hd : readDraft fuel v with ⟨d, _ | rest⟩
        · simp [Entry.read, hn, memberAt, hd] at h
        · simp only [Entry.read, hn, memberAt_of_some _ hd] at h
          obtain ⟨rfl, hr⟩ := Prod.mk.inj h
          obtain ⟨hms, hc⟩ := ihm false rest _ c r (Prod.ext rfl hr)
          exact ⟨⟨ihd v d rest hd, hms⟩, hc⟩

theorem whole_ofText {s r : List Char} {d : Draft} (h : Draft.ofText s = (d, some r)) : d.Whole :=
  (whole_of_read _).1 s d r h

mutual

/-- What is whole is passed over. -/
theorem Draft.Whole.pass : (d : Draft) → d.Whole → d.pass = .ok ()
  | .array items _, ⟨hitems, rfl⟩ => by
    rw [Draft.pass, passItems_of_whole items hitems]
    rfl
  | .object members _, ⟨hmembers, rfl⟩ => by
    rw [Draft.pass, passMembers_of_whole members hmembers]
    rfl
  | .null, _ | .bool _, _ | .number _, _ | .string _, _ => rfl

theorem passItems_of_whole : (ds : List Draft) → WholeItems ds → passItems ds = .ok ()
  | [], _ => rfl
  | d :: ds, ⟨hd, hds⟩ => by
    rw [passItems, Draft.Whole.pass d hd]
    exact passItems_of_whole ds hds

theorem passMembers_of_whole : (ms : List (Except Fault (List Char) × Draft)) → WholeMembers ms → passMembers ms = .ok ()
  | [], _ => rfl
  | (_, d) :: ms, ⟨hd, hms⟩ => by
    rw [passMembers, Draft.Whole.pass d hd]
    exact passMembers_of_whole ms hms

end

/-! ## What readers take -/

theorem map_eq_ok {α β ε : Type} {f : α → β} {x : Except ε α} {y : β} : f <$> x = .ok y ↔ ∃ a, x = .ok a ∧ f a = y := by
  cases x <;> simp

section
variable {α : Type} {read : Reader α} {depth : Nat} {d : Draft} {x : α} {xs : List α}

theorem mapM_eq_ok_iff {β : Type} {f : β → Except Fault α} {R : β → α → Prop} {ys : List β}
    (hf : ∀ y ∈ ys, ∀ x, f y = .ok x ↔ R y x) : ys.mapM f = .ok xs ↔ List.Forall₂ R ys xs := by
  induction ys generalizing xs with
  | nil => simp [pure, Except.pure, eq_comm]
  | cons y ys ih =>
    obtain ⟨hy, hys⟩ := List.forall_mem_cons.1 hf
    rw [List.mapM_cons, List.forall₂_cons_left_iff]
    simp only [bind_eq_ok, ih hys, hy, pure, Except.pure, Except.ok.injEq]
    constructor
    · rintro ⟨x, hx, xs, hxs, rfl⟩
      exact ⟨x, xs, hx, hxs, rfl⟩
    · rintro ⟨x, xs, hx, hxs, rfl⟩
      exact ⟨x, hx, xs, hxs, rfl⟩

theorem readString_iff {s : String} : readString depth d = .ok s ↔ ∃ cs, d = .string (.ok cs) ∧ String.ofList cs = s := by
  cases d with
  | string content => cases content <;> simp [readString, Except.map]
  | _ => simp [readString]

theorem readOptional_iff {o : Option α} : readOptional read depth d = .ok o
    ↔ d = .null ∧ o = none ∨ d ≠ .null ∧ ∃ x, read depth d = .ok x ∧ o = some x := by
  cases d with
  | null => simp [readOptional, eq_comm]
  | _ =>
    rw [readOptional]
    · cases read depth _ <;> simp [Except.map, eq_comm]
    · simp

/-- A list is read from an array, item by item. -/
theorem readList_iff {R : Draft → α → Prop} (hd : d.Whole) (h : 1 < depth)
    (hread : ∀ item x, item.Whole → (read (depth - 1) item = .ok x ↔ R item x)) :
    readList read depth d = .ok xs ↔ ∃ items, d = .array items .closed ∧ List.Forall₂ R items xs := by
  cases d with
  | array items closing =>
    obtain ⟨hitems, rfl⟩ := hd
    have hmap : items.mapM (read (depth - 1)) = .ok xs ↔ List.Forall₂ R items xs :=
      mapM_eq_ok_iff fun item hi x => hread item x (wholeItems_iff.1 hitems item hi)
    rw [readList, openBracket_of_lt h]
    simp [bind_eq_ok, hmap, Closing.wantingItems, pure, Except.pure]
  | _ => simp [readList]

/-- A value is read from a text that holds nothing behind it but blanks. -/
theorem readText_iff {s : String} : readText read s = .ok x
    ↔ ∃ d rest, Draft.ofText s.toList = (d, some rest) ∧ skipSpace rest = [] ∧ read maxDepth d = .ok x := by
  rw [readText, readWhole, bind_eq_ok]
  rcases Draft.ofText s.toList with ⟨d, _ | rest⟩
  · simp
  · by_cases hr : skipSpace rest = []
    · simp [hr, pure, Except.pure]
    · simp [hr]

end

end Captioning.Json
