import NycPropertyResolver.Ingestion.WriteFrames

/-!
# Ingestion — exact snapshots

A snapshot row holds the version of its property next to one of its BINs.  The rows are exact when a
property that still has the version in its row has exactly the BINs listed with it: then a version
check of the publication is a check of the BINs the run has scanned.  Every change of a BIN set moves
the version on and keeps the rows exact; what makes them exact in the first place is that the BINs
and the version were read from one state.
-/

namespace NycPropertyResolver

open Library

variable {Row : Type} {config : ExecutorConfig} {service : EcbRowService Row}

/-- Snapshot rows of which a publication may trust the versions: a property at its version in the
rows has the BINs listed for it, and no row is ahead of its property. -/
structure SnapshotExact (db : Db Row) (rows : List IngestionRunPropertyBin) : Prop where
  known : ∀ row ∈ rows, db.properties.find row.propertyId ≠ none
  bins : ∀ row ∈ rows, db.versionOf row.propertyId = some row.propertyIdentifierVersion →
    ∀ bin, bin ∈ db.propertyBins row.propertyId ↔
      ∃ row' ∈ rows, row'.propertyId = row.propertyId ∧ row'.bin = bin
  le : ∀ row ∈ rows, ∀ n, db.versionOf row.propertyId = some n →
    row.propertyIdentifierVersion ≤ n

namespace SnapshotExact

variable {db db' : Db Row} {rows : List IngestionRunPropertyBin} {p : PropertyId}

theorem nil : SnapshotExact db [] :=
  ⟨fun _ h => (nomatch h), fun _ h => (nomatch h), fun _ h => (nomatch h)⟩

/-- Rows stay exact while the properties stay. -/
theorem mono (h : SnapshotExact db rows) (hp : db'.properties = db.properties)
    (hb : db'.propertyBins = db.propertyBins) : SnapshotExact db' rows where
  known := by rw [hp]; exact h.known
  bins := by
    simp only [Db.versionOf, hp, hb]
    exact h.bins
  le := by
    simp only [Db.versionOf, hp]
    exact h.le

/-- Replacing the BIN set of a property moves its version past every row. -/
theorem lt_replaceBinSet (h : SnapshotExact db rows) (bins : SortedSet CanonicalBin)
    {row : IngestionRunPropertyBin} (hrow : row ∈ rows) {n : Nat}
    (hn : (db.replaceBinSet row.propertyId bins).versionOf row.propertyId = some n) :
    row.propertyIdentifierVersion < n := by
  have hself : (db.replaceBinSet row.propertyId bins).versionOf row.propertyId =
      (db.versionOf row.propertyId).map (· + 1) := by
    simp [Db.versionOf, Db.replaceBinSet, Option.map_map, Function.comp_def]
  rw [hself] at hn
  obtain ⟨m, hm, rfl⟩ := Option.map_eq_some_iff.mp hn
  exact Nat.lt_succ_of_le (h.le row hrow m hm)

theorem versionOf_replaceBinSet_ne {q : PropertyId} {bins : SortedSet CanonicalBin} (e : q ≠ p) :
    (db.replaceBinSet p bins).versionOf q = db.versionOf q := by
  simp only [Db.versionOf, Db.replaceBinSet, Table.find_modify_ne e]

/-- **Rows stay exact when the BIN set of a property is replaced.** -/
theorem replaceBinSet (h : SnapshotExact db rows) (bins : SortedSet CanonicalBin) :
    SnapshotExact (db.replaceBinSet p bins) rows := by
  refine ⟨fun row hrow => ?_, fun row hrow hv bin => ?_, fun row hrow n hn => ?_⟩
  · simp only [Db.replaceBinSet, Table.find_modify]
    split
    · simpa using h.known row hrow
    · exact h.known row hrow
  · by_cases e : row.propertyId = p
    · subst e
      exact absurd (h.lt_replaceBinSet bins hrow hv) (Nat.lt_irrefl _)
    · rw [versionOf_replaceBinSet_ne e] at hv
      simp only [Db.replaceBinSet, Function.update_of_ne e]
      exact h.bins row hrow hv bin
  · by_cases e : row.propertyId = p
    · subst e
      exact Nat.le_of_lt (h.lt_replaceBinSet bins hrow hn)
    · rw [versionOf_replaceBinSet_ne e] at hn
      exact h.le row hrow n hn

/-- Rows stay exact when a property is created: it is in none of them. -/
theorem create (h : SnapshotExact db rows) {property : Property} {bins : SortedSet CanonicalBin}
    (hp : db.properties.find p = none)
    (hprop : db'.properties = db.properties.set p property)
    (hbins : db'.propertyBins = Function.update db.propertyBins p bins) :
    SnapshotExact db' rows := by
  have hne : ∀ row ∈ rows, row.propertyId ≠ p := fun row hrow e =>
    h.known row hrow (by rw [e, hp])
  have hv : ∀ row ∈ rows, db'.versionOf row.propertyId = db.versionOf row.propertyId :=
    fun row hrow => by rw [Db.versionOf, hprop, Table.find_set_ne (hne row hrow), Db.versionOf]
  refine ⟨fun row hrow => ?_, fun row hrow hver bin => ?_, fun row hrow n hn => ?_⟩
  · rw [hprop, Table.find_set_ne (hne row hrow)]
    exact h.known row hrow
  · rw [hv row hrow] at hver
    rw [hbins, Function.update_of_ne (hne row hrow)]
    exact h.bins row hrow hver bin
  · rw [hv row hrow] at hn
    exact h.le row hrow n hn

/-- **Rows whose BINs are still those of their properties when the versions are read are exact.** -/
theorem of_loaded {relationships : List (CanonicalBin × PropertyId)}
    (hl : ∀ bin p, (bin, p) ∈ relationships → ∀ bin', bin' ∈ db.propertyBins p ↔
      (bin', p) ∈ relationships)
    (h : db.includeProperties relationships = some rows) : SnapshotExact db rows := by
  have hmem : ∀ row, row ∈ rows ↔ (row.bin, row.propertyId) ∈ relationships ∧
      db.versionOf row.propertyId = some row.propertyIdentifierVersion :=
    fun row => Db.mem_includeProperties h
  refine ⟨fun row hr hn => ?_, fun row hr hv bin => ?_, fun row hr n hn => ?_⟩
  · have hv := ((hmem row).mp hr).2
    rw [Db.versionOf, hn] at hv
    cases hv
  · rw [hl _ _ ((hmem row).mp hr).1 bin]
    constructor
    · exact fun hb => ⟨⟨row.propertyId, row.propertyIdentifierVersion, bin⟩,
        (hmem _).mpr ⟨hb, hv⟩, rfl, rfl⟩
    · rintro ⟨row', hr', e, rfl⟩
      rw [← e]
      exact ((hmem row').mp hr').1
  · rw [((hmem row).mp hr).2] at hn
    exact le_of_eq (Option.some.inj hn)

/-- **An identity event keeps rows exact.** -/
theorem createProperty (h : SnapshotExact db rows) {input : CreatePropertyInput} {now : Time}
    (hc : db.createProperty p input now = .ok db') : SnapshotExact db' rows := by
  obtain ⟨_, _, -, -, -, -, hp, rfl⟩ := Db.createProperty_eq_ok hc
  exact h.create hp rfl rfl

theorem applyEffectiveBinSet (h : SnapshotExact db rows) {candidateBins : List String}
    {r : ApplyEffectiveBinSetResult}
    (ha : db.applyEffectiveBinSet p candidateBins = .ok (db', r)) : SnapshotExact db' rows := by
  obtain ⟨-, ⟨-, rfl, -⟩ | ⟨-, -, rfl⟩⟩ := Db.applyEffectiveBinSet_eq_ok ha
  · exact h
  · exact h.replaceBinSet _

end SnapshotExact

end NycPropertyResolver
