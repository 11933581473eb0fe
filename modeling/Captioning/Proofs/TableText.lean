import Captioning.Catalog.Table
import Mathlib.Data.List.Basic
/-!
# Tables read back

A `Pair` is an address and a caption that a line of a table can hold. Trimming takes the blanks around a pair away and
none of its own, and the first tab is the one behind its address (`parseLine?_around`); where an item is found there was
a pair (`exists_pair_of_parseLine?`). So of the lines of a table those give an item that hold a pair, whatever stands
between them and however they end (`items_written`), and the others are the ones that are skipped.
-/

namespace Captioning

namespace Table

/-! ## Pairs -/

/-- An address and the caption behind it. The address holds no tab and starts with no blank, the caption ends with no
blank, and neither is empty. -/
structure Pair where
  url : List Char
  caption : List Char
  url_ne : url ≠ []
  url_tab : '\t' ∉ url
  url_start : ∀ c, url.head? = some c → Text.isBlank c = false
  caption_ne : caption ≠ []
  caption_end : ∀ c, caption.getLast? = some c → Text.isBlank c = false

namespace Pair

/-- The text of a pair. -/
def text (p : Pair) : List Char := p.url ++ '\t' :: p.caption

/-- The item of a pair. The relocated address is its identity, and where its media is. -/
def item (relocations : List Relocation) (p : Pair) : Item where
  id := Address.relocate relocations (String.ofList p.url)
  source := .ofText (Address.relocate relocations (String.ofList p.url))
  format := .ofReference (Address.relocate relocations (String.ofList p.url))
  originUrl := Address.relocate relocations (String.ofList p.url)
  caption := String.ofList p.caption
  attribution := none
  located := true
  described := false

theorem item_eq (relocations : List Relocation) (p : Pair) :
    Table.item relocations p.url p.caption = p.item relocations := by
  simp [Table.item, Item.new, item, Address.relocate, SourceRef.text_ofText]

/-- A line that holds a pair, with blanks around it. -/
def On (p : Pair) (line : List Char) : Prop :=
  ∃ before behind, Text.allBlank before = true ∧ Text.allBlank behind = true ∧ line = before ++ p.text ++ behind

theorem trim_around (p : Pair) {before behind : List Char} (hf : Text.allBlank before = true)
    (hb : Text.allBlank behind = true) : Text.trim (before ++ p.text ++ behind) = p.text := by
  refine Text.trim_around hf hb (fun c hc => p.url_start c ?_) fun c hc => p.caption_end c ?_
  · rwa [text, List.head?_append_of_ne_nil _ p.url_ne] at hc
  · rwa [text, List.getLast?_append_of_ne_nil _ (List.cons_ne_nil _ _), List.getLast?_cons_of_ne_nil p.caption_ne] at hc

end Pair

/-! ## Lines -/

section Lines

variable {relocations : List Relocation} {line : List Char} {i : Item}

/-- Blanks around a line do not count. -/
theorem parseLine?_eq_of_trim_eq {line' : List Char} (h : Text.trim line = Text.trim line') :
    parseLine? relocations line = parseLine? relocations line' := by
  rw [parseLine?, h, ← parseLine?]

/-- A line that holds a pair gives its item: the first tab is the one behind the address. -/
theorem parseLine?_around {p : Pair} (h : p.On line) : parseLine? relocations line = some (p.item relocations) := by
  obtain ⟨before, behind, hf, hb, rfl⟩ := h
  have hurl : ∀ c ∈ p.url, (c != '\t') = true := fun c hc => bne_iff_ne.2 (ne_of_mem_of_not_mem hc p.url_tab)
  have htake : p.text.takeWhile (· != '\t') = p.url := by
    rw [Pair.text, List.takeWhile_append_of_pos hurl]
    simp
  have hdrop : p.text.dropWhile (· != '\t') = '\t' :: p.caption := by
    rw [Pair.text, List.dropWhile_append_of_pos hurl]
    simp
  have hne : ¬ p.url.isEmpty = true := by simpa using p.url_ne
  simp only [parseLine?, p.trim_around hf hb, htake, hdrop, if_neg hne, p.item_eq]

/-- A line that gives an item has a tab in it, and something in front of the first one. -/
theorem exists_tab_of_parseLine? (h : parseLine? relocations line = some i) :
    ∃ url caption, '\t' ∉ url ∧ url ≠ [] ∧ Text.trim line = url ++ '\t' :: caption := by
  have hsplit := List.takeWhile_append_dropWhile (p := (· != '\t')) (l := Text.trim line)
  have hhead := List.head?_dropWhile_not (· != '\t') (Text.trim line)
  have htab : '\t' ∉ (Text.trim line).takeWhile (· != '\t') := fun hc => by
    simpa using List.all_eq_true.1 (List.all_takeWhile (p := (· != '\t'))) _ hc
  simp only [parseLine?] at h
  split at h
  · rename_i c caption hd
    rw [hd] at hsplit hhead
    obtain rfl : c = '\t' := by simpa using hhead
    exact ⟨_, caption, htab, by simpa using (Option.ite_none_left_eq_some.1 h).1, hsplit.symm⟩
  · cases h

/-- A line that gives an item holds a pair. -/
theorem exists_pair_of_parseLine? (h : parseLine? relocations line = some i) :
    ∃ p : Pair, p.On line ∧ i = p.item relocations := by
  obtain ⟨before, behind, hf, hb, hline⟩ := Text.exists_around line
  obtain ⟨url, caption, htab, hne, htrim⟩ := exists_tab_of_parseLine? h
  -- A tab is blank, so the line does not end with the one behind the address once it is trimmed.
  have hcaption : caption ≠ [] := by
    rintro rfl
    have := Text.isBlank_of_getLast?_trim (c := '\t') (s := line) (by simp [htrim])
    revert this
    decide
  have hstart : ∀ c, url.head? = some c → Text.isBlank c = false := fun c hc =>
    Text.isBlank_of_head?_trim (s := line) (by rw [htrim, List.head?_append_of_ne_nil _ hne, hc])
  have hend : ∀ c, caption.getLast? = some c → Text.isBlank c = false := fun c hc =>
    Text.isBlank_of_getLast?_trim (s := line) (by
      rw [htrim, List.getLast?_append_of_ne_nil _ (List.cons_ne_nil _ _), List.getLast?_cons_of_ne_nil hcaption, hc])
  let p : Pair := ⟨url, caption, hne, htab, hstart, hcaption, hend⟩
  have hon : p.On line := ⟨before, behind, hf, hb, by rwa [htrim] at hline⟩
  exact ⟨p, hon, Option.some.inj (h.symm.trans (parseLine?_around hon))⟩

theorem parseLine?_eq_some_iff :
    parseLine? relocations line = some i ↔ ∃ p : Pair, p.On line ∧ i = p.item relocations := by
  constructor
  · exact exists_pair_of_parseLine?
  · rintro ⟨p, hp, rfl⟩
    exact parseLine?_around hp

/-- A return at the end of a line is one of the blanks around it. -/
theorem trim_dropReturn (s : List Char) : Text.trim (Text.dropReturn '\r' s) = Text.trim s := by
  have hblank : Text.allBlank ['\r'] = true := by decide
  rcases Text.dropReturn_cases '\r' s with h | h
  · rw [h]
  · rw [← Text.trim_append_of_all hblank, ← h]

end Lines

/-! ## Tables -/

/-- The end of a line. -/
inductive LineEnd
  | feed
  | returnFeed

namespace LineEnd

/-- What stands in front of the line feed. -/
def front : LineEnd → List Char
  | .feed => []
  | .returnFeed => ['\r']

/-- The text of a line end. -/
def text (e : LineEnd) : List Char := e.front ++ ['\n']

theorem allBlank_front (e : LineEnd) : Text.allBlank e.front = true := by
  cases e <;> decide

theorem notMem_front (e : LineEnd) : '\n' ∉ e.front := by
  cases e <;> decide

end LineEnd

/-- A line of a table without its end: a pair with blanks around it, or anything that holds no tab between the blanks
around it. -/
inductive Entry
  | pair (p : Pair) (line : List Char) (on : p.On line) (one_line : '\n' ∉ line)
  | other (line : List Char) (no_tab : '\t' ∉ Text.trim line) (one_line : '\n' ∉ line)

namespace Entry

/-- The text of an entry. -/
def text : Entry → List Char
  | pair _ line _ _ => line
  | other line _ _ => line

/-- The pair of an entry. -/
def pair? : Entry → Option Pair
  | pair p _ _ _ => some p
  | other _ _ _ => none

theorem notMem_text (e : Entry) : '\n' ∉ e.text := by
  cases e <;> assumption

/-- What is read from an entry. -/
theorem parseLine?_text (relocations : List Relocation) (e : Entry) :
    parseLine? relocations e.text = e.pair?.map (Pair.item relocations) := by
  cases e with
  | pair p line on => exact parseLine?_around on
  | other line no_tab => exact parseLine?_eq_none_iff.2 (.inl no_tab)

/-- An entry with its end in front splits off, and its end is not read. -/
theorem lines_ended (e : Entry) (ending : LineEnd) (rest : List Char) : ∃ line,
    Text.lines (e.text ++ ending.text ++ rest) = line :: Text.lines rest ∧ Text.trim line = Text.trim e.text := by
  have hline : '\n' ∉ e.text ++ ending.front := by
    simpa using ⟨e.notMem_text, ending.notMem_front⟩
  have hshape : e.text ++ ending.text ++ rest = (e.text ++ ending.front) ++ '\n' :: rest := by simp [LineEnd.text]
  refine ⟨_, hshape ▸ Text.lines_append_line hline rest, ?_⟩
  rw [trim_dropReturn, Text.trim_append_of_all ending.allBlank_front]

end Entry

/-- The text of a table: some entries with their ends, and perhaps one without. -/
def written (entries : List (Entry × LineEnd)) (last : Option Entry) : List Char :=
  (entries.flatMap fun e => e.1.text ++ e.2.text) ++ (last.map Entry.text).getD []

/-- The pairs of a table in order. -/
def pairs (entries : List (Entry × LineEnd)) (last : Option Entry) : List Pair :=
  (entries.map (·.1) ++ last.toList).filterMap Entry.pair?

/-- The items of a table are those of its pairs. -/
theorem items_written (relocations : List Relocation) (entries : List (Entry × LineEnd)) (last : Option Entry) :
    (Text.lines (written entries last)).filterMap (parseLine? relocations)
      = (pairs entries last).map (Pair.item relocations) := by
  induction entries with
  | nil =>
    cases last with
    | none => rfl
    | some e =>
      have hread := e.parseLine?_text relocations
      have hpairs : pairs [] (some e) = e.pair?.toList := by
        cases h : e.pair? <;> simp [pairs, h]
      have hwritten : written [] (some e) = e.text := by simp [written]
      rw [hpairs, hwritten]
      by_cases he : e.text = []
      · rw [he] at hread ⊢
        have hnone : parseLine? relocations [] = none := rfl
        simp [Option.map_eq_none_iff.1 (hread.symm.trans hnone), Text.lines, Text.linesOf]
      · rw [Text.lines_of_notMem e.notMem_text he]
        cases h : e.pair? <;> simp [hread, h]
  | cons entry entries ih =>
    obtain ⟨e, ending⟩ := entry
    have hwritten : written ((e, ending) :: entries) last = e.text ++ ending.text ++ written entries last := by
      simp [written]
    have hpairs : pairs ((e, ending) :: entries) last = e.pair?.toList ++ pairs entries last := by
      cases h : e.pair? <;> simp [pairs, h]
    obtain ⟨line, hlines, htrim⟩ := e.lines_ended ending (written entries last)
    have hread : parseLine? relocations line = e.pair?.map (Pair.item relocations) :=
      (parseLine?_eq_of_trim_eq htrim).trans (e.parseLine?_text relocations)
    rw [hwritten, hlines, hpairs, List.map_append, ← ih]
    cases h : e.pair? <;> simp [hread, h]

/-- A table gives the items of its pairs, in order. Of any text each line gives the item of the pair that it holds, and
is skipped if it holds none; the items and the skipped lines are as many as its line feeds, and one more if the last
line lacks its end. -/
theorem table_read_back (name : String) (relocations : List Relocation) :
    (∀ entries last, (parse name (written entries last) relocations).1.items
      = (pairs entries last).map (Pair.item relocations))
    ∧ ∀ text, (parse name text relocations).1.items = (Text.lines text).filterMap (parseLine? relocations)
      ∧ (∀ line i, parseLine? relocations line = some i ↔ ∃ p : Pair, p.On line ∧ i = p.item relocations)
      ∧ (parse name text relocations).2 = (Text.lines text).countP (fun line => (parseLine? relocations line).isNone)
      ∧ (parse name text relocations).1.items.length + (parse name text relocations).2 = (Text.lines text).length
      ∧ (Text.lines text).length = text.count '\n' + if text = [] ∨ text.getLast? = some '\n' then 0 else 1 := by
  refine ⟨items_written relocations, fun text => ?_⟩
  refine ⟨rfl, fun _ _ => parseLine?_eq_some_iff, ?_, ?_, Text.length_lines text⟩
  · have hlength := List.length_eq_countP_add_countP (fun line => (parseLine? relocations line).isSome)
      (l := Text.lines text)
    simp only [Bool.not_eq_true, Option.isSome_eq_false_iff, Bool.decide_eq_true] at hlength
    simp only [parse, List.length_filterMap_eq_countP]
    omega
  · exact Nat.add_sub_cancel' (List.length_filterMap_le _ _)

end Table

end Captioning
