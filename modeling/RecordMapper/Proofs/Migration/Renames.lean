import RecordMapper.Migration.Rename
import RecordMapper.Proofs.Schema.Validity
/-!
Detected renames start from different columns and lead to different names, none of which is taken.
-/

namespace RecordMapper

open Text

variable {m : Mapping} {live : LiveTable}

def LiveTable.HasColumn (live : LiveTable) (name : String) : Prop :=
  ∃ l ∈ live.columns, lower l.name = lower name

theorem LiveTable.column?_eq_none {name : String} :
    live.column? name = none ↔ ¬live.HasColumn name := by
  simp [LiveTable.column?, LiveTable.HasColumn, sameName_iff]

theorem LiveTable.column?_eq_some {name : String} {l : LiveColumn}
    (h : live.column? name = some l) : l ∈ live.columns ∧ lower l.name = lower name := by
  rw [LiveTable.column?] at h
  exact ⟨List.mem_of_find?_eq_some h, by simpa [sameName_iff] using List.find?_some h⟩

theorem LiveTable.HasColumn.congr {a b : String} (h : live.HasColumn a) (he : lower a = lower b) :
    live.HasColumn b := by
  obtain ⟨l, hl, hn⟩ := h
  exact ⟨l, hl, hn.trans he⟩

instance (live : LiveTable) (name : String) : Decidable (live.HasColumn name) :=
  inferInstanceAs (Decidable (∃ l ∈ live.columns, lower l.name = lower name))

/-- The table lacks the column under its own name and has one under the name of its field. -/
def Column.TakesOver (c : Column) (live : LiveTable) : Prop :=
  c.isRenamed = true ∧ ¬live.HasColumn c.name ∧ live.HasColumn c.field

instance (c : Column) (live : LiveTable) : Decidable (c.TakesOver live) :=
  inferInstanceAs (Decidable (_ ∧ _ ∧ _))

namespace Rename

variable {renames : List Rename}

/-- Each column that takes over another makes one rename. -/
theorem exists_detect {c : Column} (hc : c ∈ m.columns) (h : c.TakesOver live) :
    ∃ r ∈ detect m live, r.target = c.name ∧ lower r.source = lower c.field := by
  obtain ⟨hi, hno, hyes⟩ := h
  cases hl : live.column? c.field with
  | none => exact absurd hyes (LiveTable.column?_eq_none.1 hl)
  | some l =>
    refine ⟨⟨l.name, c.name⟩, List.mem_filterMap.2 ⟨c, hc, ?_⟩, rfl,
      (LiveTable.column?_eq_some hl).2⟩
    rw [hi, LiveTable.column?_eq_none.2 hno, hl]
    rfl

theorem mem_detect {r : Rename} (h : r ∈ detect m live) :
    ∃ c ∈ m.columns, c.isRenamed = true ∧ ¬live.HasColumn c.name ∧ r.target = c.name ∧
      lower r.source = lower c.field ∧ live.HasColumn r.source := by
  obtain ⟨c, hc, hr⟩ := List.mem_filterMap.1 h
  simp only [Option.ite_none_right_eq_some, Option.map_eq_some_iff, Bool.and_eq_true,
    Option.isNone_iff_eq_none] at hr
  obtain ⟨⟨hi, hn⟩, l, hl, rfl⟩ := hr
  obtain ⟨hm, hs⟩ := LiveTable.column?_eq_some hl
  exact ⟨c, hc, hi, LiveTable.column?_eq_none.1 hn, rfl, hs, l, hm, rfl⟩

/-- No rename leads to a name that a rename starts from. -/
theorem target_ne_source {r r' : Rename} (hr : r ∈ detect m live) (hr' : r' ∈ detect m live) :
    lower r.target ≠ lower r'.source := by
  obtain ⟨c, _, _, hno, ht, _⟩ := mem_detect hr
  obtain ⟨_, _, _, _, _, _, hyes⟩ := mem_detect hr'
  intro he
  exact hno (hyes.congr (by rw [← he, ht]))

theorem targets_ne_sources (h : renames = detect m live) :
    ∀ r ∈ renames, ∀ r' ∈ renames, lower r.target ≠ lower r'.source := by
  intro r hr r' hr'
  rw [h] at hr hr'
  exact target_ne_source hr hr'

theorem newName_of_not_source {name : String} (h : ∀ r ∈ renames, lower r.source ≠ lower name) :
    newName renames name = name := by
  have hn : renames.find? (fun r => sameName r.source name) = none := by
    simpa [List.find?_eq_none, sameName_iff] using h
  simp [newName, hn]

/-- A name either stays, or some rename starts from it. -/
theorem newName_cases (renames : List Rename) (name : String) :
    ((∀ r ∈ renames, lower r.source ≠ lower name) ∧ newName renames name = name) ∨
      ∃ r ∈ renames, lower r.source = lower name ∧ newName renames name = r.target := by
  cases hr : renames.find? (fun r => sameName r.source name) with
  | none =>
    have h : ∀ r ∈ renames, lower r.source ≠ lower name := by
      simpa [List.find?_eq_none, sameName_iff] using hr
    exact .inl ⟨h, newName_of_not_source h⟩
  | some r =>
    have hs : lower r.source = lower name := by simpa [sameName_iff] using List.find?_some hr
    exact .inr ⟨r, List.mem_of_find?_eq_some hr, hs, by simp [newName, hr]⟩

/-- A column under the name of a field keeps it or takes the name of the field's column. -/
theorem newName_field (hf : DistinctNames (m.columns.map Column.field)) {c : Column}
    (hc : c ∈ m.columns) {name : String} (hn : lower name = lower c.field) :
    lower (newName (detect m live) name) = lower c.field ∨
      lower (newName (detect m live) name) = lower c.name := by
  rcases newName_cases (detect m live) name with ⟨_, he⟩ | ⟨r, hr, hs, he⟩
  · exact .inl (by rw [he, hn])
  · obtain ⟨d, hd, _, _, ht, hsd, _⟩ := mem_detect hr
    have hdc : d = c := hf.eq hd hc (by rw [← hsd, hs, hn])
    exact .inr (by rw [he, ht, hdc])

/-- Renames that can be made in any order, each from one column to one free name. -/
structure Clean (live : LiveTable) (renames : List Rename) : Prop where
  sources : ∀ r ∈ renames, ∀ r' ∈ renames, lower r.source = lower r'.source → r = r'
  targets : ∀ r ∈ renames, ∀ r' ∈ renames, lower r.target = lower r'.target → r = r'
  taken : ∀ r ∈ renames, live.HasColumn r.source
  free : ∀ r ∈ renames, ¬live.HasColumn r.target

/-- New names that no live column has, each for one column. -/
structure Fresh (live : LiveTable) (renames : List Rename) : Prop where
  targets : ∀ r ∈ renames, ∀ r' ∈ renames, lower r.target = lower r'.target → r = r'
  free : ∀ r ∈ renames, ¬live.HasColumn r.target

theorem Clean.fresh (h : Clean live renames) : Fresh live renames := ⟨h.targets, h.free⟩

theorem eq_of_detect {r r' : Rename} {c : Column} (hr : r ∈ detect m live)
    (hr' : r' ∈ detect m live) (hf : DistinctNames (m.columns.map Column.field))
    (hn : DistinctNames (m.columns.map Column.name))
    (hc : c ∈ m.columns)
    (h : lower r.target = lower c.name ∨ lower r.source = lower c.field)
    (h' : lower r'.target = lower c.name ∨ lower r'.source = lower c.field) : r = r' := by
  have hcol {r : Rename} (hr : r ∈ detect m live)
      (h : lower r.target = lower c.name ∨ lower r.source = lower c.field) :
      (live.column? c.field).map (⟨·.name, c.name⟩) = some r := by
    obtain ⟨d, hd, hs⟩ := List.mem_filterMap.1 hr
    simp only [Option.ite_none_right_eq_some] at hs
    obtain ⟨e, he, _, _, ht, hsrc, _⟩ := mem_detect hr
    have hed : d = e := by
      obtain ⟨l, _, rfl⟩ := Option.map_eq_some_iff.1 hs.2
      exact hn.eq hd he (congrArg lower ht)
    have hec : e = c := by
      rcases h with h | h
      · exact hn.eq he hc (by rw [← h, ht])
      · exact hf.eq he hc (by rw [← h, hsrc])
    rw [← hec, ← hed]
    exact hs.2
  exact Option.some.inj ((hcol hr h).symm.trans (hcol hr' h'))

theorem clean_detect (hn : DistinctNames (m.columns.map Column.name))
    (hf : DistinctNames (m.columns.map Column.field)) : Clean live (detect m live) where
  sources r hr r' hr' h := by
    obtain ⟨c, hc, _, _, _, hs, _⟩ := mem_detect hr
    exact eq_of_detect hr hr' hf hn hc (.inr hs) (.inr (h.symm.trans hs))
  targets r hr r' hr' h := by
    obtain ⟨c, hc, _, _, ht, _, _⟩ := mem_detect hr
    exact eq_of_detect hr hr' hf hn hc (.inl (congrArg lower ht))
      (.inl (h.symm.trans (congrArg lower ht)))
  taken r hr := by
    obtain ⟨_, _, _, _, _, _, hl⟩ := mem_detect hr
    exact hl
  free r hr := by
    obtain ⟨c, _, _, hl, ht, _, _⟩ := mem_detect hr
    rwa [ht]

theorem lower_newName_congr {a b : String} (h : lower a = lower b) :
    lower (newName renames a) = lower (newName renames b) := by
  have hf : (fun r : Rename => sameName r.source a) = fun r => sameName r.source b := by
    funext r
    simp [sameName, h]
  simp only [newName, hf]
  split
  · rfl
  · exact h

namespace Clean

variable (h : Clean live renames)

include h

theorem not_target_source {r r' : Rename} (hr : r ∈ renames) (hr' : r' ∈ renames) :
    lower r.target ≠ lower r'.source :=
  fun he => h.free r hr ((h.taken r' hr').congr he.symm)

theorem newName_source {r : Rename} (hr : r ∈ renames) {name : String}
    (hn : lower name = lower r.source) : newName renames name = r.target := by
  rcases newName_cases renames name with ⟨ha, _⟩ | ⟨r', hr', hs, he⟩
  · exact absurd hn.symm (ha r hr)
  · rw [he, h.sources r' hr' r hr (hs.trans hn)]

/-- A live column has the name that a rename leads to exactly when the rename starts from it. -/
theorem newName_eq_target {r : Rename} (hr : r ∈ renames) {name : String}
    (hl : live.HasColumn name) :
    lower (newName renames name) = lower r.target ↔ lower name = lower r.source := by
  constructor
  · intro he
    rcases newName_cases renames name with ⟨_, hn⟩ | ⟨r', hr', hs, hn⟩
    · rw [hn] at he
      exact absurd (hl.congr he) (h.free r hr)
    · rw [hn] at he
      rw [← h.targets r' hr' r hr he, hs]
  · intro he
    rw [h.newName_source hr he]

end Clean

theorem Fresh.previousName_target (h : Fresh live renames) {r : Rename} (hr : r ∈ renames)
    {name : String} (hn : lower r.target = lower name) :
    previousName? renames name = some r.source := by
  have hf : renames.find? (fun r => sameName r.target name) = some r := by
    apply find?_eq_some_of_unique hr (sameName_iff.2 hn)
    intro r' hr' hs
    exact h.targets r' hr' r hr ((sameName_iff.1 hs).trans hn.symm)
  rw [previousName?, hf, Option.map_some]

theorem previousName_of_not_target {name : String}
    (h : ∀ r ∈ renames, lower r.target ≠ lower name) :
    previousName? renames name = none := by
  simpa [previousName?, List.find?_eq_none, sameName_iff] using h

end Rename

end RecordMapper
