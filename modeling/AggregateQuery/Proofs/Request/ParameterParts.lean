import AggregateQuery.Proofs.Request.ParameterOrder
/-!
The parts of a request. Other texts of the parameters that feed one part change that part of a
request only; the table and the zone are no parts, since names and times are read in them.
-/
namespace AggregateQuery

inductive RequestParameters.Part where
  | granularity
  | dimensions
  | metrics
  | intervals
  | filters
  | havings
  | sorts
  | count
  | topN
  | page
  | format
  | asyncAfter

def DataRequest.replacing (r : DataRequest) (part : RequestParameters.Part)
    (other : DataRequest) : DataRequest :=
  match part with
  | .granularity => { r with granularity := other.granularity }
  | .dimensions =>
    { r with dimensions := other.dimensions, dimensionFields := other.dimensionFields }
  | .metrics => { r with metrics := other.metrics }
  | .intervals => { r with intervals := other.intervals }
  | .filters => { r with filters := other.filters }
  | .havings => { r with havings := other.havings }
  | .sorts => { r with sorts := other.sorts }
  | .count => { r with count := other.count }
  | .topN => { r with topN := other.topN }
  | .page => { r with page := other.page }
  | .format => { r with format := other.format }
  | .asyncAfter => { r with asyncAfter := other.asyncAfter }

namespace RequestParameters

def replacing (p : RequestParameters) (part : Part) (other : RequestParameters) :
    RequestParameters :=
  match part with
  | .granularity => { p with granularity := other.granularity }
  | .dimensions => { p with dimensions := other.dimensions }
  | .metrics => { p with metrics := other.metrics }
  | .intervals => { p with intervals := other.intervals }
  | .filters => { p with filters := other.filters }
  | .havings => { p with having := other.having }
  | .sorts => { p with sorts := other.sorts }
  | .count => { p with count := other.count }
  | .topN => { p with topN := other.topN }
  | .page => { p with perPage := other.perPage, page := other.page }
  | .format => { p with format := other.format }
  | .asyncAfter => { p with asyncAfter := other.asyncAfter }

variable {p other : RequestParameters} {resolver : Resolver} {settings : Settings}
  {r r' : DataRequest}

theorem ReadAs.replacing {part : Part} (parts : p.ReadAs resolver settings r)
    (partsThere : (p.replacing part other).ReadAs resolver settings r') :
    (p.replacing part other).ReadAs resolver settings (r.replacing part r') := by
  have table : r'.table = r.table := by
    cases part <;> exact Except.ok.inj (partsThere.table.symm.trans parts.table)
  have zone : r'.timeZone = r.timeZone := by
    cases part <;> exact Except.ok.inj (partsThere.timeZone.symm.trans parts.timeZone)
  have dimensions := table ▸ partsThere.dimensions
  have metrics := table ▸ partsThere.metrics
  have intervals := zone ▸ partsThere.intervals
  have filters := table ▸ partsThere.filters
  have havings := table ▸ partsThere.havings
  cases part with
  | granularity => exact { parts with granularity := partsThere.granularity }
  | dimensions => exact { parts with dimensions }
  | metrics => exact { parts with metrics }
  | intervals => exact { parts with intervals }
  | filters => exact { parts with filters }
  | havings => exact { parts with havings }
  | sorts => exact { parts with sorts := partsThere.sorts }
  | count => exact { parts with count := partsThere.count }
  | topN => exact { parts with topN := partsThere.topN }
  | page => exact { parts with page := partsThere.page }
  | format => exact { parts with format := partsThere.format }
  | asyncAfter => exact { parts with asyncAfter := partsThere.asyncAfter }

/-- Each part of a request is fed by its own parameters only, and the first parameter that cannot be
read is the error, whatever later ones are. -/
theorem parts_isolated_first_fault_reported (resolver : Resolver) (settings : Settings) :
    (∀ (p other : RequestParameters) part r r', p.toDataRequest resolver settings = .ok r →
      (p.replacing part other).toDataRequest resolver settings = .ok r' →
        r' = r.replacing part r') ∧
    (∀ (p : RequestParameters) e,
      p.toDataRequest resolver settings = .error e ↔ p.FirstFault resolver settings e) ∧
    ∀ (p p' : RequestParameters) e, p.toDataRequest resolver settings = .error e →
      (∀ key ∈ e.key :: e.key.earlier, p'.given? key = p.given? key) →
        p'.toDataRequest resolver settings = .error e := by
  refine ⟨?_, fun _ _ => toDataRequest_eq_error_iff, fun _ _ _ => toDataRequest_error_stable⟩
  intro p other part r r' built builtThere
  have parts := toDataRequest_eq_ok_iff.mp built
  have mixed := parts.replacing (toDataRequest_eq_ok_iff.mp builtThere)
  exact Except.ok.inj (builtThere.symm.trans (toDataRequest_eq_ok_iff.mpr mixed))

def secondPage : RequestParameters :=
  { table := "orders", metrics := some "sales", perPage := some "5", page := some "2" }

def unknownFieldFirst : RequestParameters :=
  { table := "orders"
    dimensions := some "region(id|name)"
    filters := some "area-in[a]"
    count := some "0"
    page := some "2" }

theorem page_isolated_field_reported :
    (∃ r r', secondPage.toDataRequest SmallCatalog.catalog.resolver {} = .ok r ∧
      (secondPage.replacing .page { perPage := some "7" }).toDataRequest
        SmallCatalog.catalog.resolver {} = .ok r' ∧
      r' = r.replacing .page r' ∧ r'.page ≠ r.page) ∧
    toDataRequest { unknownFieldFirst with metrics := some "sales", count := some "3" }
      SmallCatalog.catalog.resolver {} = .error (.unknownDimensionField "region" "name") := by
  obtain ⟨isolated, first, stable⟩ :=
    parts_isolated_first_fault_reported SmallCatalog.catalog.resolver {}
  refine ⟨?_, ?_⟩
  · have built : (secondPage.toDataRequest SmallCatalog.catalog.resolver {}).isOk = true := by
      decide +kernel
    have builtThere : ((secondPage.replacing .page { perPage := some "7" }).toDataRequest
        SmallCatalog.catalog.resolver {}).isOk = true := by
      decide +kernel
    obtain ⟨r, read⟩ := exists_of_isOk built
    obtain ⟨r', readThere⟩ := exists_of_isOk builtThere
    refine ⟨r, r', read, readThere, isolated _ _ _ _ _ read readThere, ?_⟩
    have page : r.page = some ⟨⟨5, by decide, by decide⟩, ⟨2, by decide, by decide⟩⟩ :=
      (Except.ok.inj (toDataRequest_eq_ok_iff.mp read).page).symm
    have pageThere : r'.page = some ⟨⟨7, by decide, by decide⟩, .one⟩ :=
      (Except.ok.inj (toDataRequest_eq_ok_iff.mp readThere).page).symm
    rw [page, pageThere]
    decide
  · refine stable unknownFieldFirst _ _ ?_ ?_
    · exact (first unknownFieldFirst _).mpr ⟨rfl, by decide +kernel⟩
    · decide +kernel

end RequestParameters

end AggregateQuery
