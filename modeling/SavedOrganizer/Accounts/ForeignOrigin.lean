import SavedOrganizer.Accounts.Origin

/-!
# Are foreign origins refused?

`validate_browser_origin` folds three cases into one `None`: no header, an empty `Referer`, and
a header that is no origin. Where no origin is required that lets a request through, so an
`Origin` of `null`, which a sandboxed frame sends, passes like none at all.

`validate_ok_iff` says which requests pass, and `foreign_refused_iff` for which requests every
foreign header is refused.
-/

namespace SavedOrganizer

open Python

section Check

variable (py : Runtime) (lower : Text → Text) (publicOrigin : Option Text)

/-- The check raises. -/
def Raises (request : BrowserRequest) (required : Bool) : Prop :=
  ∃ e, validateBrowserOrigin py lower publicOrigin request required = .error e

/-- Foreign headers are refused: an `Origin` that does not normalize to the expected origin, and
without one a `Referer` that parses to another origin. -/
structure RefusesForeign (request : BrowserRequest) (required : Bool) : Prop where
  origin : ∀ header, request.origin = some header →
    (¬ ∃ o, normalizedOrigin py lower header = some o ∧
      expectedOrigin py lower publicOrigin request = some o) →
    Raises py lower publicOrigin request required
  referer : request.origin = none → ∀ header o, request.referer = some header →
    normalizedOrigin py lower header = some o →
    expectedOrigin py lower publicOrigin request ≠ some o →
    Raises py lower publicOrigin request required

end Check

section Refusal

variable {py : Runtime} {lower : Text → Text} {publicOrigin : Option Text}
  {request : BrowserRequest} {required : Bool}

/-- A request that passes has no origin where none is required, or the expected one. -/
theorem supplied_of_ok (h : validateBrowserOrigin py lower publicOrigin request required = .ok ()) :
    (request.supplied py lower = none ∧ required = false) ∨
      ∃ o, request.supplied py lower = some o ∧
        expectedOrigin py lower publicOrigin request = some o := by
  cases hSite : request.crossSite with
  | true =>
      rw [validate_crossSite hSite] at h
      cases h
  | false =>
      rw [validate_eq hSite] at h
      cases hSupplied : request.supplied py lower with
      | none =>
          rw [hSupplied] at h
          cases required with
          | true => cases h
          | false => exact Or.inl ⟨rfl, rfl⟩
      | some o =>
          rw [hSupplied] at h
          cases hExpected : expectedOrigin py lower publicOrigin request with
          | none =>
              rw [hExpected] at h
              cases h
          | some expected =>
              rw [hExpected] at h
              dsimp only at h
              split at h
              · cases h
              · rename_i hSame
                obtain rfl := eq_of_compareDigest hSame
                exact Or.inr ⟨o, rfl, rfl⟩
              · cases h

theorem raises_or_ok (py : Runtime) (lower : Text → Text) (publicOrigin : Option Text)
    (request : BrowserRequest) (required : Bool) :
    Raises py lower publicOrigin request required ∨
      validateBrowserOrigin py lower publicOrigin request required = .ok () := by
  unfold Raises
  cases validateBrowserOrigin py lower publicOrigin request required with
  | error e => exact Or.inl ⟨e, rfl⟩
  | ok u => exact Or.inr rfl

/-- A `Referer` that parses to another origin never passes. -/
theorem foreign_referer_raises (hOrigin : request.origin = none) {header o : Text}
    (hReferer : request.referer = some header) (hParsed : normalizedOrigin py lower header = some o)
    (hForeign : expectedOrigin py lower publicOrigin request ≠ some o) :
    Raises py lower publicOrigin request required := by
  have hSupplied : request.supplied py lower = some o := by
    have hSome : header.isEmpty = false := by
      rw [← Bool.not_eq_true, List.isEmpty_iff]
      rintro rfl
      cases hParsed
    rw [BrowserRequest.supplied, hOrigin, hReferer]
    dsimp only
    rw [Option.filter_some, hSome]
    exact hParsed
  refine (raises_or_ok py lower publicOrigin request required).resolve_right fun hOk => ?_
  rcases supplied_of_ok hOk with ⟨hNone, -⟩ | ⟨o', hSome, hExpected⟩
  · rw [hSupplied] at hNone
    cases hNone
  · obtain rfl := Option.some.inj (hSupplied.symm.trans hSome)
    exact hForeign hExpected

/-- Foreign headers are refused exactly where an origin is required, where `Sec-Fetch-Site`
tells, and where the `Origin` header, if there is one, is an origin at all. -/
theorem foreign_refused_iff (py : Runtime) (lower : Text → Text) (publicOrigin : Option Text)
    (request : BrowserRequest) (required : Bool) :
    RefusesForeign py lower publicOrigin request required ↔
      required = true ∨ request.crossSite = true ∨
        ∀ header, request.origin = some header → normalizedOrigin py lower header ≠ none := by
  constructor
  · intro h
    by_contra hNot
    rw [not_or, not_or, Bool.not_eq_true, Bool.not_eq_true] at hNot
    obtain ⟨rfl, hSite, hOrigin⟩ := hNot
    obtain ⟨header, hHeader⟩ := not_forall.mp hOrigin
    obtain ⟨hHeader, hNone⟩ := Classical.not_imp.mp hHeader
    rw [not_not] at hNone
    obtain ⟨e, hError⟩ := h.origin header hHeader fun ⟨o, hSome, _⟩ => by
      rw [hNone] at hSome
      cases hSome
    have hSupplied : request.supplied py lower = none := by
      rw [BrowserRequest.supplied, hHeader]
      exact hNone
    rw [validate_eq hSite, hSupplied] at hError
    cases hError
  · intro h
    refine ⟨fun header hHeader hForeign => ?_, fun hOrigin header o hReferer hParsed hForeign =>
      foreign_referer_raises hOrigin hReferer hParsed hForeign⟩
    have hSupplied : request.supplied py lower = normalizedOrigin py lower header := by
      rw [BrowserRequest.supplied, hHeader]
    refine (raises_or_ok py lower publicOrigin request required).resolve_right fun hOk => ?_
    rcases supplied_of_ok hOk with ⟨hNone, hRequired⟩ | ⟨o, hSome, hExpected⟩
    · rcases h with h | h | h
      · rw [hRequired] at h
        cases h
      · rw [validate_crossSite h] at hOk
        cases hOk
      · exact h header hHeader (hSupplied.symm.trans hNone)
    · exact hForeign ⟨o, hSupplied.symm.trans hSome, hExpected⟩

/-- The `Origin` of a sandboxed frame passes where no origin is required. -/
theorem null_origin_passes :
    validateBrowserOrigin asciiRuntime (List.map Char.toLower)
        (some "https://organizer.test".toList)
        ⟨none, some "null".toList, none, "https".toList, "organizer.test".toList⟩ false = .ok () ∧
      ¬ RefusesForeign asciiRuntime (List.map Char.toLower) (some "https://organizer.test".toList)
        ⟨none, some "null".toList, none, "https".toList, "organizer.test".toList⟩ false := by
  refine ⟨rfl, fun h => ?_⟩
  obtain ⟨e, hError⟩ := h.origin "null".toList rfl fun ⟨o, hSome, _⟩ => by cases hSome
  cases hError

end Refusal

end SavedOrganizer
