import Captioning.Catalog.Table
import Captioning.Locate.Locators
import Captioning.Proofs.JsonSteps
import Captioning.Proofs.ReplacedTexts
import Captioning.Proofs.TableText
import Mathlib.Data.List.Induction
/-!
# Relocated addresses

Relocations are `Settled` if no new host can bring about an old one, neither in it nor together with what stands around
it. Then none of the old hosts is left in an address once all relocations have been applied, since a later one does not
undo what an earlier one has done (`not_occurs_relocateChars`), and a relocated address stays as it is
(`relocate_relocate`). The default relocations are settled. So an item of a table is fetched from the address that is its
identity, though the address is relocated once more on the way (`identity_fetched`).
-/

namespace Captioning

namespace Address

/-- Relocations whose old hosts never meet the new ones. -/
def Settled (rs : List Relocation) : Prop :=
  ∀ a ∈ rs, ∀ b ∈ rs, Text.NeverMeets a.old.toList b.new.toList

section

variable {rs : List Relocation} {a r : Relocation} {u : List Char}

theorem relocateChars_concat : relocateChars (rs ++ [r]) u
    = Text.replaceAll r.old.toList r.new.toList (relocateChars rs u) := by
  simp [relocateChars]

theorem Settled.init (h : Settled (rs ++ [r])) : Settled rs := fun a ha b hb =>
  h a (List.mem_append_left [r] ha) b (List.mem_append_left [r] hb)

theorem Settled.replaces (h : Settled rs) (hr : r ∈ rs) (u : List Char) :
    Text.Replaces r.old.toList r.new.toList u (Text.replaceAll r.old.toList r.new.toList u) :=
  (Text.replaces_iff (h r hr r hr).ne_nil).2 rfl

/-- No old host is left: each is gone after its own relocation, and no later one brings it back. -/
theorem not_occurs_relocateChars (h : Settled rs) (ha : a ∈ rs) (u : List Char) :
    ¬ a.old.toList <:+: relocateChars rs u := by
  induction rs using List.reverseRecOn with
  | nil => cases ha
  | append_singleton rs r ih =>
    have hr : r ∈ rs ++ [r] := List.mem_append_right rs List.mem_cons_self
    have hreplaces := h.replaces hr (relocateChars rs u)
    have hmeets := h a ha r hr
    rw [relocateChars_concat]
    rcases List.mem_append.1 ha with ha | ha
    · exact fun hocc => ih h.init ha (hreplaces.occurs_of_occurs hmeets hocc)
    · obtain rfl := List.mem_singleton.1 ha
      exact hreplaces.not_occurs hmeets

/-- Nothing changes where no old host occurs. -/
theorem relocateChars_of_not_occurs (h : ∀ a ∈ rs, ¬ a.old.toList <:+: u) : relocateChars rs u = u := by
  induction rs using List.reverseRecOn with
  | nil => rfl
  | append_singleton rs r ih =>
    rw [relocateChars_concat, ih fun a ha => h a (List.mem_append_left [r] ha),
      Text.replaceAll_of_not_occurs (h r (List.mem_append_right rs List.mem_cons_self))]

theorem relocateChars_eq_self_iff (h : Settled rs) : relocateChars rs u = u ↔ ∀ a ∈ rs, ¬ a.old.toList <:+: u :=
  ⟨fun hu _ ha => hu ▸ not_occurs_relocateChars h ha u, relocateChars_of_not_occurs⟩

theorem relocate_relocate (h : Settled rs) (url : String) : relocate rs (relocate rs url) = relocate rs url := by
  rw [relocate, relocate, String.toList_ofList,
    relocateChars_of_not_occurs fun a ha => not_occurs_relocateChars h ha url.toList]

end

/-- A name of an old host starts with a digit that the name of the new one lacks, and the other way round. -/
theorem settled_defaultRelocations : Settled Settings.defaultRelocations := by
  have hold : ∀ a ∈ Settings.defaultRelocations, a.old.toList.head? = some '3' ∧ '6' ∉ a.old.toList := by decide
  have hnew : ∀ b ∈ Settings.defaultRelocations, b.new.toList.head? = some '6' ∧ '3' ∉ b.new.toList := by decide
  exact fun a ha b hb => ⟨⟨'3', (hold a ha).1, (hnew b hb).2⟩, ⟨'6', (hnew b hb).1, (hold a ha).2⟩⟩

end Address

/-! ## Tables -/

namespace Table

variable {t : FileTree} {path : String} {rs : List Relocation} {table : Table} {skipped : Nat} {i : Item}

/-- The identity of an item of a table is a relocated address, and says where its media is. -/
theorem exists_url_of_load (h : load t path rs = .ok (table, skipped)) (hi : i ∈ table.items) :
    ∃ url, i.id = Address.relocate rs url ∧ i.source = .ofText i.id := by
  simp only [load] at h
  split at h
  · obtain ⟨rfl, -⟩ := Prod.mk.inj (Except.ok.inj h)
    obtain ⟨line, -, hline⟩ := List.mem_filterMap.1 hi
    obtain ⟨p, -, rfl⟩ := exists_pair_of_parseLine? hline
    exact ⟨String.ofList p.url, rfl, rfl⟩
  · cases h

end Table

theorem SourceRef.eq_remote_of_ofText {s : String} (h : (SourceRef.ofText s).isRemote = true) :
    SourceRef.ofText s = .remote s := by
  unfold SourceRef.ofText at h ⊢
  split
  · rfl
  · rename_i hs
    rw [if_neg hs] at h
    cases h

/-- Fetching what has been relocated sends the request to just that address. -/
theorem Fetcher.fetch_of_relocated {f : Fetcher} {url : String} (h : Address.relocate f.relocations url = url) :
    f.fetch url = (f.network.send (some f.limit) (f.request url)).andThen fun r =>
      .value (Fetcher.classify f.markers url r) := by
  simp only [fetch, h]

/-- With the default relocations no address is left with the name of an old host in it, whatever the address is, so
relocating it once more changes nothing. The media of an item of a table that was loaded with them is requested from the
address that is its identity. -/
theorem identity_fetched (network : Network) (home : String) :
    (∀ url : String,
      (∀ r ∈ (Settings.default home).relocations,
        ¬ r.old.toList <:+: (Address.relocate (Settings.default home).relocations url).toList)
      ∧ Address.relocate (Settings.default home).relocations (Address.relocate (Settings.default home).relocations url)
        = Address.relocate (Settings.default home).relocations url)
    ∧ ∃ f, Fetcher.ofSettings network (Settings.default home) = .ok f
      ∧ ∀ t path table skipped, Table.load t path (Settings.default home).relocations = .ok (table, skipped) →
        ∀ i ∈ table.items, i.source.isRemote = true → ∀ files, Locator.any f files i
          = (network.send (some (Settings.default home).fetchTimeout)
              ⟨.get, i.id, [("user-agent", (Settings.default home).userAgent)], []⟩).andThen fun reply =>
            .value (Fetcher.classify (Settings.default home).removalMarkers i.id reply) := by
  have hsettled : Address.Settled (Settings.default home).relocations := Address.settled_defaultRelocations
  have hagent : isHeaderValue "Mozilla/5.0" = true := by decide
  refine ⟨fun url => ⟨fun r hr => ?_, Address.relocate_relocate hsettled url⟩, _,
    if_pos hagent, fun t path table skipped hload i hi hremote files => ?_⟩
  · rw [Address.relocate, String.toList_ofList]
    exact Address.not_occurs_relocateChars hsettled hr url.toList
  · obtain ⟨url, hid, hsource⟩ := Table.exists_url_of_load hload hi
    have hrelocated : Address.relocate (Settings.default home).relocations i.id = i.id := by
      rw [hid, Address.relocate_relocate hsettled]
    rw [Locator.any, if_pos hremote, Locator.remote, hsource]
    rw [hsource] at hremote
    rw [SourceRef.eq_remote_of_ofText hremote]
    exact Fetcher.fetch_of_relocated hrelocated

namespace NearlyOld

/-- A table of one line, where the name of an old host stands inside of another name, and once more in the path. -/
def tree : FileTree :=
  ⟨[], [(["t.tsv"], .file (Utf8.ofString "https://138.media.tumblr.com/31.media.tumblr.com/a.gif\tA dog.\n"))]⟩

def item : Item :=
  ⟨"https://164.media.tumblr.com/64.media.tumblr.com/a.gif",
    .remote "https://164.media.tumblr.com/64.media.tumblr.com/a.gif", .imageSequence,
    "https://164.media.tumblr.com/64.media.tumblr.com/a.gif", "A dog.", none, true, false⟩

theorem load_tree : Table.load tree "t.tsv" Settings.defaultRelocations = .ok (⟨"t", [item]⟩, 0) :=
  eq_ok_of_toOption (by decide +kernel)

end NearlyOld

theorem identity_fetched_nearlyOld :
    Table.load NearlyOld.tree "t.tsv" Settings.defaultRelocations = .ok (⟨"t", [NearlyOld.item]⟩, 0)
    ∧ NearlyOld.item ∈ [NearlyOld.item] ∧ NearlyOld.item.source.isRemote = true
    ∧ ∃ f, Fetcher.ofSettings .unreachable (Settings.default "/home/me") = .ok f
      ∧ Locator.any f NearlyOld.tree NearlyOld.item
        = (Network.send .unreachable (some (.ofSeconds 30))
            ⟨.get, "https://164.media.tumblr.com/64.media.tumblr.com/a.gif", [("user-agent", "Mozilla/5.0")], []⟩).andThen
          fun reply => .value (Fetcher.classify ["assets.tumblr.com/images/media_violation/"]
            "https://164.media.tumblr.com/64.media.tumblr.com/a.gif" reply) := by
  obtain ⟨-, f, hf, hitems⟩ := identity_fetched .unreachable "/home/me"
  have hmem : NearlyOld.item ∈ [NearlyOld.item] := List.mem_singleton_self _
  exact ⟨NearlyOld.load_tree, hmem, rfl, f, hf, hitems _ _ _ _ NearlyOld.load_tree _ hmem rfl NearlyOld.tree⟩

end Captioning
