import Captioning.Proofs.RelocatedAddresses
import Captioning.Proofs.WrittenAddresses
/-!
# Relocated hosts

Relocations are meant for the hosts of addresses and are applied to the whole text of one. No character that separates the
parts of an address is in the name of an old host, so what stands in front of the host, the host and what stands behind
it are relocated by themselves (`relocateChars_text`), and nothing gets longer or shorter (`length_relocateChars`).
So just the host is replaced exactly where nothing else in the address holds the name of an old host, and the host
itself either is one as it is written, or is none in any spelling and holds none (`replacesHost_iff`).
-/

namespace Captioning

namespace Address

open Url (Written)

/-! ## Relocating a part at a time -/

section

variable {rs : List Relocation} {s t : List Char} {c : Char}

/-- The characters that separate the parts of an address. -/
def separators : List Char := [':', '/', '\\', '@', '?', '#']

/-- Relocations to a host: the names of the old ones are as long as its own, and no separator is in them. -/
structure ToHost (host : List Char) (rs : List Relocation) : Prop where
  ne_nil : ∀ r ∈ rs, r.old.toList ≠ []
  apart : ∀ r ∈ rs, ∀ c ∈ separators, c ∉ r.old.toList
  new_eq : ∀ r ∈ rs, r.new.toList = host
  length_eq : ∀ r ∈ rs, r.new.toList.length = r.old.toList.length

variable {r : Relocation} {host : List Char}

theorem ToHost.tail (h : ToHost host (r :: rs)) : ToHost host rs where
  ne_nil q hq := h.ne_nil q (List.mem_cons_of_mem r hq)
  apart q hq := h.apart q (List.mem_cons_of_mem r hq)
  new_eq q hq := h.new_eq q (List.mem_cons_of_mem r hq)
  length_eq q hq := h.length_eq q (List.mem_cons_of_mem r hq)

theorem relocateChars_cons : relocateChars (r :: rs) s
    = relocateChars rs (Text.replaceAll r.old.toList r.new.toList s) := rfl

theorem length_relocateChars (h : ToHost host rs) (s : List Char) : (relocateChars rs s).length = s.length := by
  induction rs generalizing s with
  | nil => rfl
  | cons r rs ih =>
    rw [relocateChars_cons, ih h.tail,
      Text.length_replaceAll (h.ne_nil r List.mem_cons_self) (h.length_eq r List.mem_cons_self)]

theorem relocateChars_nil (h : ToHost host rs) : relocateChars rs [] = [] :=
  List.eq_nil_of_length_eq_zero (length_relocateChars h [])

/-- An address may be cut at a separator. -/
theorem relocateChars_append_cons (h : ToHost host rs) (hc : c ∈ separators) (s t : List Char) :
    relocateChars rs (s ++ c :: t) = relocateChars rs s ++ c :: relocateChars rs t := by
  induction rs generalizing s t with
  | nil => rfl
  | cons r rs ih =>
    have hr : c ∉ r.old.toList := h.apart r List.mem_cons_self c hc
    rw [relocateChars_cons, Text.replaceAll_append_cons hr (h.ne_nil r List.mem_cons_self), ih h.tail]
    rfl

/-- Only the names of old hosts, and the new one itself, become the new one. -/
theorem of_relocateChars_eq (h : ToHost host rs) (hs : relocateChars rs s = host) :
    s = host ∨ ∃ r ∈ rs, s = r.old.toList := by
  induction rs with
  | nil => exact .inl hs
  | cons r rs ih =>
    have hr := List.mem_cons_self (a := r) (l := rs)
    have hlength : s.length = r.old.toList.length := by
      rw [← length_relocateChars h s, hs, ← h.new_eq r hr, h.length_eq r hr]
    rw [relocateChars_cons, Text.replaceAll_of_length_eq (h.ne_nil r hr) hlength] at hs
    split at hs
    · rename_i hold
      exact .inr ⟨r, hr, hold⟩
    · refine (ih h.tail hs).imp_right ?_
      rintro ⟨q, hq, hold⟩
      exact ⟨q, List.mem_cons_of_mem r hq, hold⟩

end

/-! ## The host and what stands around it -/

section

variable (a : Written)

theorem mem_separators_of_isSlash {c : Char} (h : Url.isSlash c = true) : c ∈ separators := by
  rw [Url.isSlash, Bool.or_eq_true, beq_iff_eq, beq_iff_eq] at h
  rcases h with rfl | rfl <;> decide

theorem exists_front_eq : ∃ s c, a.front = s ++ [c] ∧ c ∈ separators := by
  cases hu : a.user with
  | some u => exact ⟨a.scheme ++ ':' :: (a.slashes ++ u), '@', by simp [Written.front, Url.userText, hu], by decide⟩
  | none =>
    rcases List.eq_nil_or_concat a.slashes with hs | ⟨slashes, c, hs⟩
    · exact ⟨a.scheme, ':', by simp [Written.front, Url.userText, hu, hs], by decide⟩
    · refine ⟨a.scheme ++ ':' :: slashes, c, by simp [Written.front, Url.userText, hu, hs], ?_⟩
      exact mem_separators_of_isSlash (a.slashes_all c (by simp [hs]))

theorem behind_cases : a.behind = [] ∨ ∃ c t, a.behind = c :: t ∧ c ∈ separators := by
  rcases hb : a.behind with _ | ⟨c, t⟩
  · exact .inl rfl
  · refine .inr ⟨c, t, rfl, ?_⟩
    have hhead : a.behind.head? = some c := congrArg List.head? hb
    cases hs : a.service with
    | some s =>
      rw [Written.behind, hs] at hhead
      obtain rfl := Option.some.inj hhead
      decide
    | none =>
      have hpath : (a.path ++ a.marks).head? = some c := by rwa [Written.behind, hs] at hhead
      have hends : Url.endsAuthority c = true := by simpa using a.head?_path hpath
      rw [Url.endsAuthority, Bool.or_eq_true, Bool.or_eq_true, beq_iff_eq, beq_iff_eq] at hends
      rcases hends with (hslash | rfl) | rfl
      · exact mem_separators_of_isSlash hslash
      · decide
      · decide

variable {rs : List Relocation} {host : List Char}

/-- What stands in front of the host, the host and what stands behind it are relocated by themselves. -/
theorem relocateChars_text (h : ToHost host rs) : relocateChars rs a.text
    = relocateChars rs a.front ++ (relocateChars rs a.host ++ relocateChars rs a.behind) := by
  obtain ⟨s, c, hfront, hc⟩ := exists_front_eq a
  have hrest : relocateChars rs (a.host ++ a.behind) = relocateChars rs a.host ++ relocateChars rs a.behind := by
    rcases behind_cases a with hb | ⟨d, t, hb, hd⟩
    · rw [hb, List.append_nil, relocateChars_nil h, List.append_nil]
    · have hbehind : relocateChars rs (d :: t) = d :: relocateChars rs t := by
        rw [← List.nil_append (d :: t), relocateChars_append_cons h hd, relocateChars_nil h, List.nil_append]
      rw [hb, relocateChars_append_cons h hd, hbehind]
  have hfront' : relocateChars rs (s ++ [c]) = relocateChars rs s ++ [c] := by
    rw [relocateChars_append_cons h hc, relocateChars_nil h]
  rw [Written.text, Written.textWith, hfront, List.append_assoc, List.singleton_append,
    relocateChars_append_cons h hc, hrest, hfront', List.append_assoc, List.singleton_append]

/-- What an address with another host is, is told by its parts. -/
theorem relocateChars_text_eq_iff (h : ToHost host rs) (new : List Char) :
    relocateChars rs a.text = a.textWith new
      ↔ relocateChars rs a.front = a.front ∧ relocateChars rs a.host = new ∧ relocateChars rs a.behind = a.behind := by
  rw [relocateChars_text a h, Written.textWith]
  constructor
  · intro heq
    obtain ⟨hfront, hrest⟩ := List.append_inj heq (length_relocateChars h a.front)
    obtain ⟨hhost, hbehind⟩ := List.append_inj' hrest (length_relocateChars h a.behind)
    exact ⟨hfront, hhost, hbehind⟩
  · rintro ⟨hfront, hhost, hbehind⟩
    rw [hfront, hhost, hbehind]

end

/-! ## The default relocations -/

/-- The host that the default relocations lead to. -/
def newHost : List Char := "64.media.tumblr.com".toList

/-- The name of an old host is in a text. -/
def HoldsOld (s : List Char) : Prop :=
  ∃ r ∈ Settings.defaultRelocations, r.old.toList <:+: s

/-- The host of an address is an old one, however it is spelled. -/
def AtOldHost (a : Written) : Prop :=
  ∃ r ∈ Settings.defaultRelocations, Host.canonical? a.host = some r.old.toList

/-- Relocating an address replaces just its host if that is an old one, and nothing otherwise. -/
def ReplacesHost (a : Written) : Prop :=
  (AtOldHost a → relocateChars Settings.defaultRelocations a.text = a.textWith newHost)
    ∧ (¬ AtOldHost a → relocateChars Settings.defaultRelocations a.text = a.text)

theorem toHost_defaultRelocations : ToHost newHost Settings.defaultRelocations where
  ne_nil := by decide
  apart r hr c hc := by
    have hall : ∀ r ∈ Settings.defaultRelocations, (separators.all fun c => !r.old.toList.contains c) = true := by
      decide +kernel
    simpa using List.all_eq_true.1 (hall r hr) c hc
  new_eq := by decide
  length_eq := by decide

theorem relocateChars_default_eq_self_iff {s : List Char} :
    relocateChars Settings.defaultRelocations s = s ↔ ¬ HoldsOld s := by
  rw [relocateChars_eq_self_iff settled_defaultRelocations, HoldsOld]
  exact ⟨fun h ⟨r, hr, hs⟩ => h r hr hs, fun h r hr hs => h ⟨r, hr, hs⟩⟩

theorem relocateChars_text_eq_textWith_iff (a : Written) :
    relocateChars Settings.defaultRelocations a.text = a.textWith newHost ↔ ¬ HoldsOld a.front
      ∧ relocateChars Settings.defaultRelocations a.host = newHost ∧ ¬ HoldsOld a.behind := by
  rw [relocateChars_text_eq_iff a toHost_defaultRelocations, relocateChars_default_eq_self_iff,
    relocateChars_default_eq_self_iff]

theorem relocateChars_text_eq_self_iff (a : Written) :
    relocateChars Settings.defaultRelocations a.text = a.text ↔ ¬ HoldsOld a.front ∧ ¬ HoldsOld a.host
      ∧ ¬ HoldsOld a.behind := by
  have hself := fun {s : List Char} => relocateChars_default_eq_self_iff (s := s)
  exact (relocateChars_text_eq_iff a toHost_defaultRelocations a.host).trans (and_congr hself (and_congr hself hself))

theorem canonical?_old : ∀ r ∈ Settings.defaultRelocations, Host.canonical? r.old.toList = some r.old.toList := by
  decide +kernel

theorem canonical?_newHost : Host.canonical? newHost = some newHost := by
  decide +kernel

theorem relocateChars_old : ∀ r ∈ Settings.defaultRelocations,
    relocateChars Settings.defaultRelocations r.old.toList = newHost := by
  decide +kernel

/-- The host of an address at an old host becomes the new one only if it is written in the canonical form. -/
theorem relocateChars_host_eq_iff {a : Written} (h : AtOldHost a) :
    relocateChars Settings.defaultRelocations a.host = newHost
      ↔ ∃ r ∈ Settings.defaultRelocations, a.host = r.old.toList := by
  constructor
  · intro hhost
    refine (of_relocateChars_eq toHost_defaultRelocations hhost).resolve_left fun hnew => ?_
    obtain ⟨r, hr, hold⟩ := h
    rw [hnew, canonical?_newHost] at hold
    have hne : ∀ r ∈ Settings.defaultRelocations, newHost ≠ r.old.toList := by decide
    exact hne r hr (Option.some.inj hold)
  · rintro ⟨r, hr, hhost⟩
    rw [hhost, relocateChars_old r hr]

/-- Relocating an address replaces just the host exactly if no other part of it holds the name of an old host, and the
host is the name of an old one as it stands, or is none and holds none. -/
theorem replacesHost_iff (a : Written) : ReplacesHost a ↔ ¬ HoldsOld a.front ∧ ¬ HoldsOld a.behind
    ∧ ((∃ r ∈ Settings.defaultRelocations, a.host = r.old.toList) ∨ ¬ AtOldHost a ∧ ¬ HoldsOld a.host) := by
  by_cases hold : AtOldHost a
  · have hhost : ReplacesHost a ↔ ¬ HoldsOld a.front
        ∧ relocateChars Settings.defaultRelocations a.host = newHost ∧ ¬ HoldsOld a.behind := by
      rw [← relocateChars_text_eq_textWith_iff]
      exact ⟨fun h => h.1 hold, fun h => ⟨fun _ => h, fun hn => absurd hold hn⟩⟩
    rw [hhost, relocateChars_host_eq_iff hold]
    constructor
    · exact fun ⟨hf, hh, hb⟩ => ⟨hf, hb, .inl hh⟩
    · exact fun ⟨hf, hb, hh⟩ => ⟨hf, hh.resolve_right fun h => h.1 hold, hb⟩
  · have hhost : ReplacesHost a ↔ ¬ HoldsOld a.front ∧ ¬ HoldsOld a.host ∧ ¬ HoldsOld a.behind := by
      rw [← relocateChars_text_eq_self_iff]
      exact ⟨fun h => h.2 hold, fun h => ⟨fun ho => absurd ho hold, fun _ => h⟩⟩
    have hnone : ¬ ∃ r ∈ Settings.defaultRelocations, a.host = r.old.toList := by
      rintro ⟨r, hr, h⟩
      exact hold ⟨r, hr, h ▸ canonical?_old r hr⟩
    rw [hhost]
    constructor
    · exact fun ⟨hf, hh, hb⟩ => ⟨hf, hb, .inr ⟨hold, hh⟩⟩
    · exact fun ⟨hf, hb, hh⟩ => ⟨hf, (hh.resolve_left hnone).2, hb⟩

/-- A text with one of the two schemes is an address with its parts, and those are what it is read by. Relocating an
address relocates its host and what stands on either side of it; just the host is replaced, or nothing where that is no
old one, exactly if no other part holds the name of an old host, and the host is such a name as it stands, or is no old
host in any spelling and holds the name of none. -/
theorem host_replaced_iff {s rest : List Char} {secure : Bool} (h : Url.scheme? s = some (secure, rest)) :
    (∃ a : Written, a.secure = secure ∧ a.text = s)
    ∧ ∀ a : Written, a.text = s →
      (Url.cleaned s = s → ∀ u, Url.ofText? (String.ofList s) = some u → Host.canonical? a.host = some u.host)
      ∧ relocateChars Settings.defaultRelocations s = relocateChars Settings.defaultRelocations a.front
        ++ (relocateChars Settings.defaultRelocations a.host ++ relocateChars Settings.defaultRelocations a.behind)
      ∧ (ReplacesHost a ↔ ¬ HoldsOld a.front ∧ ¬ HoldsOld a.behind
        ∧ ((∃ r ∈ Settings.defaultRelocations, a.host = r.old.toList) ∨ ¬ AtOldHost a ∧ ¬ HoldsOld a.host)) := by
  refine ⟨Url.exists_written h, ?_⟩
  rintro a rfl
  refine ⟨fun hclean u hu => ?_, relocateChars_text a toHost_defaultRelocations, replacesHost_iff a⟩
  rw [a.ofText?_text hclean] at hu
  obtain ⟨host, hhost, hu⟩ := Option.bind_eq_some_iff.1 hu
  obtain ⟨service, -, hu⟩ := Option.bind_eq_some_iff.1 hu
  obtain rfl := Option.some.inj hu
  exact hhost

/-- An address at an old host with all its parts. -/
def moved : Written where
  secure := true
  scheme := "HTTPS".toList
  slashes := "//".toList
  user := some "me".toList
  host := "38.media.tumblr.com".toList
  service := some "444".toList
  path := "/abc/a.gif".toList
  query := some "s=1".toList
  fragment := some "top".toList
  scheme_colon := by decide
  scheme_lower := by decide
  slashes_all := List.all_eq_true.1 (by decide)
  authority := List.all_eq_true.1 (by decide)
  authority_ne := by decide
  user_last := by decide
  split := by decide
  path_start c hc := by obtain rfl := Option.some.inj hc; rfl
  path_marks := List.all_eq_true.1 (by decide)
  query_mark q hq := by obtain rfl := Option.some.inj hq; decide

/-- A copy of what was at an old host, at the address of an archive. -/
def archived : Written where
  secure := true
  scheme := "https".toList
  slashes := "//".toList
  user := none
  host := "web.archive.org".toList
  service := none
  path := "/web/2014/https://38.media.tumblr.com/a.gif".toList
  query := none
  fragment := none
  scheme_colon := by decide
  scheme_lower := by decide
  slashes_all := List.all_eq_true.1 (by decide)
  authority := List.all_eq_true.1 (by decide)
  authority_ne := by decide
  user_last := by decide
  split := by decide
  path_start c hc := by obtain rfl := Option.some.inj hc; rfl
  path_marks := List.all_eq_true.1 (by decide)
  query_mark q hq := nomatch hq

theorem host_replaced_moved :
    Url.scheme? moved.text = some (true, "//me@38.media.tumblr.com:444/abc/a.gif?s=1#top".toList)
    ∧ (∃ a : Written, a.secure = true ∧ a.text = moved.text)
    ∧ Url.cleaned moved.text = moved.text
    ∧ (∃ u, Url.ofText? (String.ofList moved.text) = some u ∧ Host.canonical? moved.host = some u.host)
    ∧ AtOldHost moved ∧ ReplacesHost moved
    ∧ relocateChars Settings.defaultRelocations moved.text
      = "HTTPS://me@64.media.tumblr.com:444/abc/a.gif?s=1#top".toList := by
  have hscheme : Url.scheme? moved.text = some (true, "//me@38.media.tumblr.com:444/abc/a.gif?s=1#top".toList) := by
    decide +kernel
  have hclean : Url.cleaned moved.text = moved.text := by decide +kernel
  have hread : (Url.ofText? (String.ofList moved.text)).isSome = true := by decide +kernel
  obtain ⟨u, hu⟩ := Option.isSome_iff_exists.1 hread
  have hr : (⟨"38.media.tumblr.com", "64.media.tumblr.com"⟩ : Relocation) ∈ Settings.defaultRelocations := by
    decide +kernel
  have hold : AtOldHost moved := ⟨_, hr, canonical?_old _ hr⟩
  have hfront : ¬ HoldsOld moved.front := relocateChars_default_eq_self_iff.1 (by decide +kernel)
  have hbehind : ¬ HoldsOld moved.behind := relocateChars_default_eq_self_iff.1 (by decide +kernel)
  obtain ⟨hwritten, hparts⟩ := host_replaced_iff hscheme
  obtain ⟨hhost, -, hiff⟩ := hparts moved rfl
  have hreplaced : ReplacesHost moved := hiff.2 ⟨hfront, hbehind, .inl ⟨_, hr, rfl⟩⟩
  exact ⟨hscheme, hwritten, hclean, ⟨u, hu, hhost hclean u hu⟩, hold, hreplaced,
    (hreplaced.1 hold).trans (by decide +kernel)⟩

theorem archived_address_changed :
    String.ofList archived.text = "https://web.archive.org/web/2014/https://38.media.tumblr.com/a.gif"
    ∧ ¬ AtOldHost archived ∧ ¬ ReplacesHost archived
    ∧ relocate Settings.defaultRelocations (String.ofList archived.text)
      = "https://web.archive.org/web/2014/https://64.media.tumblr.com/a.gif" := by
  have hhost : Host.canonical? archived.host = some "web.archive.org".toList := by decide +kernel
  have hother : ¬ AtOldHost archived := by
    have hne : ∀ r ∈ Settings.defaultRelocations, "web.archive.org".toList ≠ r.old.toList := by decide +kernel
    rintro ⟨r, hr, h⟩
    exact hne r hr (Option.some.inj (hhost.symm.trans h))
  have hchanged : relocateChars Settings.defaultRelocations archived.text ≠ archived.text := by decide +kernel
  exact ⟨by decide +kernel, hother, fun h => hchanged (h.2 hother), by decide +kernel⟩

end Address

end Captioning
