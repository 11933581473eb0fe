import Captioning.Network.Url
import Mathlib.Data.List.Basic
import Mathlib.Data.List.TakeWhile
/-!
# Addresses as they are written

A `Written` address is one with all its parts as they stand in its text. Every text with a scheme has such parts
(`exists_written`), and they are the ones that it is read by (`Written.ofText?_text`).
-/

namespace Captioning.Url

/-! ## Taking and dropping -/

section

variable {p : Char → Bool} {s t : List Char}

theorem takeWhile_append (hs : ∀ c ∈ s, p c = true) (ht : ∀ c, t.head? = some c → p c = false) :
    (s ++ t).takeWhile p = s := by
  rw [List.takeWhile_append_of_pos hs]
  cases t with
  | nil => simp
  | cons c t => simp [ht c rfl]

theorem dropWhile_append (hs : ∀ c ∈ s, p c = true) (ht : ∀ c, t.head? = some c → p c = false) :
    (s ++ t).dropWhile p = t := by
  rw [List.dropWhile_append_of_pos hs]
  cases t with
  | nil => rfl
  | cons c t => simp [ht c rfl]

theorem head?_dropWhile (p : Char → Bool) (s : List Char) {c : Char} (h : (s.dropWhile p).head? = some c) :
    p c = false := by
  have := List.head?_dropWhile_not p s
  rw [h] at this
  simpa using this

end

/-! ## Parts -/

/-- A name and perhaps a password, with the mark behind them. -/
def userText : Option (List Char) → List Char
  | some u => u ++ ['@']
  | none => []

/-- What stands between the slashes and the path. -/
def authorityText (user : Option (List Char)) (host : List Char) (service : Option (List Char)) : List Char :=
  userText user ++ (host ++ marked ':' service)

/-- An address as it is written. The slashes are all that there are. What stands in front of the path starts no path, query
or fragment; a name ends at the last of its marks. The host and the service are told apart by the colon between them,
and the path starts with a slash unless there is none. -/
structure Written where
  secure : Bool
  scheme : List Char
  slashes : List Char
  user : Option (List Char)
  host : List Char
  service : Option (List Char)
  path : List Char
  query : Option (List Char)
  fragment : Option (List Char)
  scheme_colon : ':' ∉ scheme
  scheme_lower : String.ofList (Decimal.asciiLower scheme) = if secure then "https" else "http"
  slashes_all : ∀ c ∈ slashes, isSlash c = true
  authority : ∀ c ∈ authorityText user host service, (!endsAuthority c) = true
  authority_ne : path ≠ [] → authorityText user host service ≠ []
  user_last : '@' ∉ host ++ marked ':' service
  split : splitService (host ++ marked ':' service) = (host, service.getD [])
  path_start : ∀ c, path.head? = some c → isSlash c = true
  path_marks : ∀ c ∈ path, (c != '?' && c != '#') = true
  query_mark : ∀ q, query = some q → '#' ∉ q

namespace Written

variable (a : Written)

/-- The query and the fragment with their marks. -/
def marks : List Char :=
  marked '?' a.query ++ marked '#' a.fragment

/-- What stands in front of the host. -/
def front : List Char :=
  a.scheme ++ ':' :: (a.slashes ++ userText a.user)

/-- What stands behind the host. -/
def behind : List Char :=
  marked ':' a.service ++ (a.path ++ a.marks)

/-- The text of an address with another host in place of its own. -/
def textWith (host : List Char) : List Char :=
  a.front ++ (host ++ a.behind)

/-- The text of an address. -/
def text : List Char :=
  a.textWith a.host

/-! ## Reading the parts -/

theorem head?_marked {mark c : Char} {s : Option (List Char)} (h : (marked mark s).head? = some c) : c = mark := by
  cases s with
  | none => cases h
  | some s => exact (Option.some.inj h).symm

theorem head?_marks {c : Char} (h : a.marks.head? = some c) : c = '?' ∨ c = '#' := by
  unfold marks at h
  cases hq : a.query with
  | none =>
    rw [hq] at h
    exact .inr (head?_marked h)
  | some q =>
    rw [hq] at h
    exact .inl (Option.some.inj h).symm

/-- What follows the path is none of it. -/
theorem not_path_of_marks {c : Char} (h : a.marks.head? = some c) : (c != '?' && c != '#') = false := by
  rcases a.head?_marks h with rfl | rfl <;> rfl

/-- What follows the authority ends it. -/
theorem head?_path {c : Char} (h : (a.path ++ a.marks).head? = some c) :
    (!endsAuthority c) = false := by
  cases hp : a.path with
  | nil =>
    rw [hp] at h
    rcases a.head?_marks h with rfl | rfl <;> rfl
  | cons d p =>
    rw [hp] at h
    obtain rfl : d = c := Option.some.inj h
    simp [endsAuthority, a.path_start d (by rw [hp]; rfl)]

/-- What follows the slashes is no slash. -/
theorem head?_authority {c : Char} (h : (authorityText a.user a.host a.service ++ (a.path ++ a.marks)).head? = some c) : isSlash c = false := by
  by_cases hne : authorityText a.user a.host a.service = []
  · have hp : a.path = [] := by_contra fun hp => a.authority_ne hp hne
    rw [hne, hp] at h
    rcases a.head?_marks h with rfl | rfl <;> rfl
  · rw [List.head?_append_of_ne_nil _ hne] at h
    have := a.authority c (List.mem_of_mem_head? h)
    rw [Bool.not_eq_true', endsAuthority, Bool.or_eq_false_iff, Bool.or_eq_false_iff] at this
    exact this.1.1

theorem scheme?_text : scheme? a.text = some (a.secure, a.slashes ++ (authorityText a.user a.host a.service ++ (a.path ++ a.marks))) := by
  have hs : ∀ c ∈ a.scheme, (c != ':') = true := fun c hc => bne_iff_ne.2 (ne_of_mem_of_not_mem hc a.scheme_colon)
  have htext : a.text = a.scheme ++ ':' :: (a.slashes ++ (authorityText a.user a.host a.service ++ (a.path ++ a.marks))) := by
    simp [text, textWith, front, behind, authorityText]
  rw [scheme?, htext, takeWhile_append hs (by simp), dropWhile_append hs (by simp), a.scheme_lower]
  cases a.secure <;> rfl

theorem withoutUser_authority :
    withoutUser (authorityText a.user a.host a.service) = a.host ++ marked ':' a.service := by
  have hs : ∀ c ∈ (a.host ++ marked ':' a.service).reverse, (c != '@') = true := fun c hc =>
    bne_iff_ne.2 (ne_of_mem_of_not_mem (List.mem_reverse.1 hc) a.user_last)
  have hend : ∀ c, (userText a.user).reverse.head? = some c → (c != '@') = false := by
    intro c hc
    cases hu : a.user with
    | none => rw [hu] at hc; cases hc
    | some u =>
      rw [hu, userText, List.reverse_append] at hc
      obtain rfl := Option.some.inj hc
      rfl
  rw [authorityText, withoutUser, List.reverse_append, takeWhile_append hs hend, List.reverse_reverse]

theorem behind?_query : (behind? '?' a.marks).map
    (fun r => escape inQuery (r.takeWhile (· != '#'))) = a.query.map (escape inQuery) := by
  unfold marks
  cases hq : a.query with
  | none => cases a.fragment <;> rfl
  | some q =>
    have hs : ∀ c ∈ q, (c != '#') = true := fun c hc => bne_iff_ne.2 (ne_of_mem_of_not_mem hc (a.query_mark q hq))
    have hend : ∀ c, (marked '#' a.fragment).head? = some c → (c != '#') = false := fun c hc => by
      rw [head?_marked hc]; rfl
    show some (escape inQuery ((q ++ marked '#' a.fragment).takeWhile (· != '#'))) = some (escape inQuery q)
    rw [takeWhile_append hs hend]

theorem behind?_fragment : behind? '#' (a.marks.dropWhile (· != '#'))
    = a.fragment := by
  have hs : ∀ c ∈ marked '?' a.query, (c != '#') = true := by
    intro c hc
    cases hq : a.query with
    | none => rw [hq] at hc; cases hc
    | some q =>
      rw [hq] at hc
      rcases List.mem_cons.1 hc with rfl | hc
      · rfl
      · exact bne_iff_ne.2 (ne_of_mem_of_not_mem hc (a.query_mark q hq))
  have hend : ∀ c, (marked '#' a.fragment).head? = some c → (c != '#') = false := fun c hc => by
    rw [head?_marked hc]; rfl
  rw [marks, dropWhile_append hs hend]
  cases a.fragment <;> rfl

/-- An address without line ends, tabs and blanks around it is read by its parts. -/
theorem ofText?_text (h : cleaned a.text = a.text) : ofText? (String.ofList a.text) = (do
    return ⟨a.secure, ← Host.canonical? a.host, ← service? a.secure (a.service.getD []), resolve [] (namesOf a.path),
      a.query.map (escape inQuery), a.fragment.map (escape inFragment)⟩) := by
  rw [ofText?, String.toList_ofList, h, a.scheme?_text]
  simp only [bind, Option.bind]
  rw [dropWhile_append a.slashes_all fun c => a.head?_authority, takeWhile_append a.authority fun c => a.head?_path,
    dropWhile_append a.authority fun c => a.head?_path, a.withoutUser_authority, a.split,
    takeWhile_append a.path_marks fun c => a.not_path_of_marks, dropWhile_append a.path_marks fun c => a.not_path_of_marks,
    a.behind?_query, a.behind?_fragment]

end Written

/-! ## Finding the parts -/

section

variable {s : List Char}

theorem exists_marked (mark : Char) (h : ∀ c, s.head? = some c → c = mark) : ∃ f, s = marked mark f := by
  cases s with
  | nil => exact ⟨none, rfl⟩
  | cons c s => exact ⟨some s, by rw [h c rfl]; rfl⟩

/-- A text is cut at the first of its marks. -/
theorem exists_cut (mark : Char) (s : List Char) : ∃ f, s = s.takeWhile (· != mark) ++ marked mark f
    ∧ (s.dropWhile (· != mark)).drop 1 = f.getD [] := by
  obtain ⟨f, hf⟩ := exists_marked mark (s := s.dropWhile (· != mark)) fun c hc => by
    simpa using head?_dropWhile (· != mark) s hc
  refine ⟨f, by rw [← hf, List.takeWhile_append_dropWhile], ?_⟩
  rw [hf]
  cases f <;> rfl

theorem exists_user (s : List Char) : ∃ user, s = userText user ++ withoutUser s ∧ '@' ∉ withoutUser s := by
  obtain ⟨f, hf, -⟩ := exists_cut '@' s.reverse
  refine ⟨f.map List.reverse, ?_, fun hc => ?_⟩
  · have hs := congrArg List.reverse hf
    rw [List.reverse_reverse, List.reverse_append] at hs
    refine hs.trans ?_
    cases f with
    | none => rfl
    | some u => simp [marked, userText, withoutUser]
  · simpa using List.mem_takeWhile_imp (List.mem_reverse.1 hc)

theorem exists_service (s : List Char) : ∃ host service, s = host ++ marked ':' service
    ∧ splitService s = (host, service.getD []) := by
  unfold splitService
  split
  · rename_i r
    -- behind the bracket that closes, the text is cut like any other
    set inside := ('[' :: r).takeWhile (· != ']') ++ (('[' :: r).dropWhile (· != ']')).take 1
    set rest := (('[' :: r).dropWhile (· != ']')).drop 1
    obtain ⟨service, hcut, hdrop⟩ := exists_cut ':' rest
    refine ⟨inside ++ rest.takeWhile (· != ':'), service, ?_, congrArg _ hdrop⟩
    have hwhole : inside ++ rest = '[' :: r := by
      rw [List.append_assoc, List.take_append_drop, List.takeWhile_append_dropWhile]
    rw [List.append_assoc, ← hcut, hwhole]
  · obtain ⟨service, hcut, hdrop⟩ := exists_cut ':' s
    exact ⟨_, service, hcut, by rw [hdrop]⟩

theorem exists_query (h : ∀ c, s.head? = some c → (c != '?' && c != '#') = false) :
    ∃ query fragment, s = marked '?' query ++ marked '#' fragment ∧ ∀ q, query = some q → '#' ∉ q := by
  cases s with
  | nil => exact ⟨none, none, rfl, fun q hq => nomatch hq⟩
  | cons c s =>
    have hc : c = '?' ∨ c = '#' := by
      have := h c rfl
      rwa [Bool.and_eq_false_iff, bne_eq_false_iff_eq, bne_eq_false_iff_eq] at this
    rcases hc with rfl | rfl
    · obtain ⟨f, hf, -⟩ := exists_cut '#' s
      refine ⟨some (s.takeWhile (· != '#')), f, congrArg _ hf, ?_⟩
      rintro q hq hmem
      obtain rfl := Option.some.inj hq
      simpa using List.mem_takeWhile_imp hmem
    · exact ⟨none, some s, rfl, fun q hq => nomatch hq⟩

/-- Every text with one of the two schemes is an address with its parts. -/
theorem exists_written {secure : Bool} {rest : List Char} (h : scheme? s = some (secure, rest)) :
    ∃ a : Written, a.secure = secure ∧ a.text = s := by
  let name := s.takeWhile (· != ':')
  have hname : ':' ∉ name := fun hc => by simpa using List.mem_takeWhile_imp hc
  obtain ⟨hs, hlower⟩ : s = name ++ ':' :: rest
      ∧ String.ofList (Decimal.asciiLower name) = if secure then "https" else "http" := by
    simp only [scheme?, Option.bind_eq_bind, Option.bind_eq_some_iff] at h
    obtain ⟨r, hr, h⟩ := h
    have hcut : s = name ++ ':' :: r := by
      cases hd : s.dropWhile (· != ':') with
      | nil => rw [hd] at hr; cases hr
      | cons c t =>
        rw [hd, behind?, Option.ite_none_right_eq_some] at hr
        obtain ⟨hc, hr⟩ := hr
        obtain rfl := Option.some.inj hr
        rw [← eq_of_beq hc, ← hd, List.takeWhile_append_dropWhile]
    split at h
    · rename_i hsecure
      obtain ⟨rfl, rfl⟩ := Prod.mk.inj (Option.some.inj h)
      exact ⟨hcut, eq_of_beq hsecure⟩
    · obtain ⟨hplain, h⟩ := Option.ite_none_right_eq_some.1 h
      obtain ⟨rfl, rfl⟩ := Prod.mk.inj (Option.some.inj h)
      exact ⟨hcut, eq_of_beq hplain⟩
  -- the authority is what stands between the slashes and what ends it
  let authority := (rest.dropWhile isSlash).takeWhile fun c => !endsAuthority c
  let more := (rest.dropWhile isSlash).dropWhile fun c => !endsAuthority c
  have hrest : rest = rest.takeWhile isSlash ++ (authority ++ more) := by
    rw [List.takeWhile_append_dropWhile, List.takeWhile_append_dropWhile]
  obtain ⟨user, huser, hlast⟩ := exists_user authority
  obtain ⟨host, service, hhost, hsplit⟩ := exists_service (withoutUser authority)
  have hauthority : authority = authorityText user host service := by rw [authorityText, ← hhost, ← huser]
  obtain ⟨query, fragment, hmarks, hquery⟩ := exists_query (s := more.dropWhile fun c => c != '?' && c != '#')
    fun c => head?_dropWhile _ more
  have hmore : more = more.takeWhile (fun c => c != '?' && c != '#') ++ (marked '?' query ++ marked '#' fragment) := by
    rw [← hmarks, List.takeWhile_append_dropWhile]
  have hstart : ∀ c, (more.takeWhile fun c => c != '?' && c != '#').head? = some c → isSlash c = true := by
    intro c hc
    rw [List.head?_takeWhile, Option.filter_eq_some_iff] at hc
    obtain ⟨hhead, hc⟩ := hc
    have := head?_dropWhile _ _ hhead
    simp only [Bool.and_eq_true, bne_iff_ne] at hc
    simpa [endsAuthority, hc] using this
  refine ⟨⟨secure, name, rest.takeWhile isSlash, user, host, service, more.takeWhile fun c => c != '?' && c != '#',
    query, fragment, hname, hlower, fun c => List.mem_takeWhile_imp, ?_, ?_, hhost ▸ hlast, hhost ▸ hsplit, hstart,
    fun c => List.mem_takeWhile_imp, hquery⟩, rfl, ?_⟩
  · rw [← hauthority]
    exact fun c => List.mem_takeWhile_imp
  · rw [← hauthority]
    intro hpath hnone
    obtain ⟨c, p, hp⟩ := List.exists_cons_of_ne_nil hpath
    have hhead := congrArg List.head? hp
    have hslash := hstart c hhead
    have hwhole : authority ++ more = rest.dropWhile isSlash := List.takeWhile_append_dropWhile
    rw [hnone, List.nil_append] at hwhole
    rw [List.head?_takeWhile, hwhole] at hhead
    exact Bool.false_ne_true ((head?_dropWhile isSlash rest (Option.filter_eq_some_iff.1 hhead).1).symm.trans hslash)
  · show name ++ ':' :: (rest.takeWhile isSlash ++ userText user) ++ (host ++ (marked ':' service
      ++ (more.takeWhile (fun c => c != '?' && c != '#') ++ (marked '?' query ++ marked '#' fragment)))) = s
    rw [← hmore, hs]
    conv_rhs => rw [hrest, hauthority]
    simp [authorityText]

end

end Captioning.Url
