import Captioning.Proofs.Sessions
/-!
# Flags and records

An item that is flagged as described should have a record in the log. A session that continues the log keeps this
so, whatever its limit, its outcomes and the point at which it is stopped. One that writes the log anew keeps it so
exactly if it stores a record for every item that was flagged when it began, since it takes all records and no
flag back (`Session.Goes.kept_iff`). So records are kept behind all flags through some sessions exactly if every
session that writes the log anew does that (`kept_throughout_iff`). All this is about sessions that leave no part of a
record in the log (`Session.Clean`); such a part may take the next record with it, in either mode.
-/

namespace Captioning

open RunEvent (storedIn)
open RecordLog (identities Recovers)

/-- Every item that is flagged as described has a record that is found in the log. -/
def Catalog.Kept (c : Catalog) (log : Bytes) : Prop :=
  ∀ i ∈ c.items, i.described = true → Recovers log i.id

/-- What is flagged after some marks are the identities that were flagged before, and those of the marks. -/
theorem Catalog.flagged_marks (c : Catalog) {ids : List String} (h : ∀ id ∈ ids, id ∈ c.items.map (·.id))
    (P : String → Prop) : (∀ i ∈ (c.marks ids).items, i.described = true → P i.id)
      ↔ (∀ i ∈ c.items, i.described = true → P i.id) ∧ ∀ id ∈ ids, P id := by
  constructor
  · intro hp
    refine ⟨fun i hi hd => ?_, fun id hid => ?_⟩
    · obtain ⟨j, hj, hij, hd⟩ := (marks_change ids c).described hi hd
      exact hij ▸ hp j hj hd
    · obtain ⟨j, hj, rfl, hd⟩ := described_of_mem_marks hid (h id hid)
      exact hp j hj hd
  · rintro ⟨hc, hids⟩ j hj hd
    obtain ⟨n, hn⟩ := List.mem_iff_getElem?.1 hj
    obtain ⟨i, hi, hij, hor⟩ := described_of_marks hn hd
    rw [← hij]
    rcases hor with hor | hor
    · exact hc i (List.mem_of_getElem? hi) hor
    · exact hids i.id hor

namespace Session

variable {v : Session} {c : Catalog} {log : Bytes} {skip : SkipSet}

/-- Every item that was flagged when a session began has a record stored in it. -/
def Restores (v : Session) (c : Catalog) : Prop :=
  ∀ i ∈ c.items, i.described = true → i.id ∈ (storedIn v.events).map Prod.fst

/-- A record is found in the log after a session if it was in the open log, or was stored. -/
theorem Goes.recovers_iff (h : v.Goes c log skip) (hc : v.Clean) (id : String) : Recovers (v.after log) id
    ↔ id ∈ identities (opened v.mode log) ∨ id ∈ (storedIn v.events).map Prod.fst := by
  rw [RecordLog.recovers_iff, h.identities_clean hc, List.mem_append]
  exact and_iff_right (h.isText_clean hc)

/-- The identities that are marked are of the catalog. -/
theorem Goes.mem_items (h : v.Goes c log skip) {id : String} (hid : id ∈ (storedIn v.events).map Prod.fst) :
    id ∈ c.items.map (·.id) := by
  have hrep := h.accounted.stored.subset hid
  obtain ⟨hpend, -⟩ := h.mem_queue (h.jobs.2 id (List.mem_append_left _ hrep))
  obtain ⟨i, hi, rfl⟩ := List.mem_map.1 hpend
  exact List.mem_map_of_mem (List.mem_of_mem_filter hi)

/-- After a session every flag has its record exactly if it continued the log, or stored a record for everything
that was flagged when it began. -/
theorem Goes.kept_iff (h : v.Goes c log skip) (hc : v.Clean) (hk : c.Kept log) :
    v.state.account.catalog.Kept (v.after log) ↔ (v.mode = .truncate → v.Restores c) := by
  unfold Catalog.Kept
  rw [h.accounted.catalog, c.flagged_marks (fun id hid => h.mem_items hid) (Recovers (v.after log))]
  simp only [h.recovers_iff hc]
  cases hm : v.mode with
  | extend =>
    refine iff_of_true ⟨fun i hi hd => .inl ?_, fun id hid => .inr hid⟩ (fun he => nomatch he)
    rw [opened, RecordLog.identities_continued]
    exact ((RecordLog.recovers_iff log i.id).1 (hk i hi hd)).2
  | truncate =>
    have hnil : identities (opened .truncate log) = [] := rfl
    simp only [hnil, List.not_mem_nil, false_or, forall_const]
    exact ⟨fun hp => hp.1, fun hp => ⟨hp, fun id hid => hid⟩⟩

end Session

/-! ## Sessions one after another -/

/-- Sessions can follow one another over a catalog and its log. They leave no part of a record: none crashes inside of a
line, and an append that fails has written nothing. -/
def Sessions (c : Catalog) (log : Bytes) : List Session → Prop
  | [] => True
  | v :: vs => (∃ skip, v.Goes c log skip) ∧ v.Clean ∧ Sessions v.state.account.catalog (v.after log) vs

/-- After each of some sessions every flag has its record. -/
def KeptThroughout (log : Bytes) : List Session → Prop
  | [] => True
  | v :: vs => v.state.account.catalog.Kept (v.after log) ∧ KeptThroughout (v.after log) vs

/-- Each session that writes the log anew stores a record for everything that is flagged when it begins. -/
def RestoredThroughout (c : Catalog) : List Session → Prop
  | [] => True
  | v :: vs => (v.mode = .truncate → v.Restores c) ∧ RestoredThroughout v.state.account.catalog vs

/-- Sessions that continue the log keep a record behind every flag. -/
theorem kept_of_extend {c : Catalog} {log : Bytes} {vs : List Session} (h : Sessions c log vs) (hk : c.Kept log)
    (hvs : ∀ v ∈ vs, v.mode = .extend) : KeptThroughout log vs := by
  induction vs generalizing c log with
  | nil => trivial
  | cons v vs ih =>
    obtain ⟨⟨skip, hv⟩, hc, hrest⟩ := h
    have hkept := (hv.kept_iff hc hk).2 fun hm => by
      rw [hvs v List.mem_cons_self] at hm
      cases hm
    exact ⟨hkept, ih hrest hkept fun w hw => hvs w (List.mem_cons_of_mem v hw)⟩

/-- From a catalog whose flags all have their records, they have them after each of some sessions, none of which leaves a
part of a record, exactly if each session that writes the log anew stores a record for everything that is flagged when
it begins. -/
theorem kept_throughout_iff {c : Catalog} {log : Bytes} {vs : List Session} (h : Sessions c log vs)
    (hk : c.Kept log) : KeptThroughout log vs ↔ RestoredThroughout c vs := by
  induction vs generalizing c log with
  | nil => exact Iff.rfl
  | cons v vs ih =>
    obtain ⟨⟨skip, hv⟩, hc, hvs⟩ := h
    rw [KeptThroughout, RestoredThroughout, ← hv.kept_iff hc hk]
    exact and_congr_right fun hkept => ih hvs hkept

/-! ## A record that is lost -/

namespace LostRecord

/-- A source of one item that has not been described. -/
def source : Catalog :=
  .source ⟨"clips", ⟨"clips", [⟨"a", "https://example.com/a.gif", none, none, some "a.gif", none, true, false, []⟩],
    []⟩⟩

/-- The same source with its item flagged. -/
def flagged : Catalog :=
  .source ⟨"clips", ⟨"clips", [⟨"a", "https://example.com/a.gif", none, none, some "a.gif", none, true, true, []⟩],
    []⟩⟩

/-- The item of a source of one. -/
def item (c : Catalog) : Item := c.items.headD (.new "a" (.remote "a") .imageSequence)

/-- The run over a source when its item is worked on. -/
def running (c : Catalog) : RunState :=
  { RunState.start 1 1 [item c] false c with held := none, running := [item c] }

def record : Record :=
  .ofItem (item source) ⟨"A cat falls.", "unknown", .one "funny", .one "falling", "fail", ["cat"]⟩
    ⟨⟨2024, 1, 1⟩, 0, 0⟩

def success : Report := ⟨"a", .success record, .zero⟩

def failure : Report := ⟨"a", .failed .sample (.sampling "no media was located"), .zero⟩

/-- The item is described. -/
def first : Session := ⟨.extend, 1, 1, none, false, false, [.launched (item source), .settled success none],
  (running source).finish none success, none⟩

/-- It is to be described again, with the log written anew, and fails. -/
def forced : Session := ⟨.truncate, 1, 1, none, true, false, [.launched (item flagged), .settled failure none],
  (running flagged).finish none failure, none⟩

theorem first_goes : first.Goes source [] .empty := by
  have hitem : item source ∈ (running source).running := List.mem_singleton_self (item source)
  refine ⟨rfl, (RunState.History.start.step (.launch rfl)).step (.settle hitem rfl none), ?_, ?_⟩
  · simp [first, RunEvent.Honest, RunEvent.report?, success, record, Record.ofItem, item, source, Catalog.items,
      SourceDir.items, ManifestEntry.item]
  · rintro x ⟨⟩

theorem forced_goes (log : Bytes) : forced.Goes flagged log .empty := by
  have hitem : item flagged ∈ (running flagged).running := List.mem_singleton_self (item flagged)
  refine ⟨rfl, (RunState.History.start.step (.launch rfl)).step (.settle hitem rfl none), ?_, ?_⟩
  · simp [forced, RunEvent.Honest, RunEvent.report?, failure]
  · rintro x ⟨⟩

theorem clean_first : first.Clean := ⟨rfl, by simp [first, RunEvent.Clean]⟩

theorem clean_forced : forced.Clean := ⟨rfl, by simp [forced, RunEvent.Clean]⟩

theorem sessions : Sessions source [] [first, forced] :=
  ⟨⟨_, first_goes⟩, clean_first, ⟨_, forced_goes _⟩, clean_forced, trivial⟩

theorem kept_source : source.Kept [] := by
  rintro i hi hd
  obtain rfl := List.mem_singleton.1 hi
  cases hd

end LostRecord

open LostRecord in
/-- The flag is kept, and its record is not. -/
theorem lost_record : ¬ KeptThroughout [] [first, forced] := by
  intro hk
  have hr := (kept_throughout_iff sessions kept_source).1 hk
  exact absurd (hr.2.1 rfl (item flagged) (List.mem_singleton_self _) rfl) List.not_mem_nil

end Captioning
