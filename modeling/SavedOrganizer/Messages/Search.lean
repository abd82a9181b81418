import Mathlib.Data.List.Infix
import SavedOrganizer.Messages.Service

/-!
# Searching literally

The pattern of a search escapes each backslash and both wildcards, in three replacements of
which none touches what another has put in (`escaped_eq`). Under `LIKE` an escaped text
matches itself alone, and the `%` on both sides let it stand anywhere (`sqlLike_searchPattern`).

`ilike` compares lower case. A case mapping that goes character by character and lets the three
special characters alone turns the pattern of a search into the pattern of its lower case.
-/

namespace SavedOrganizer

/-- The characters with a meaning in a pattern. -/
def special : List Char := ['\\', '%', '_']

def escapeChar (c : Char) : Text := if c ∈ special then ['\\', c] else [c]

def escaped (t : Text) : Text := t.flatMap escapeChar

/-- A case mapping that goes character by character and keeps the special ones apart from the
others. -/
structure Sql.MapsChars (sql : Sql) (f : Char → Text) : Prop where
  lower : ∀ t, sql.lower t = t.flatMap f
  special : ∀ c ∈ special, f c = [c]
  others : ∀ c, c ∉ SavedOrganizer.special → ∀ d ∈ f c, d ∉ SavedOrganizer.special

/-! ## The pattern -/

theorem escapeChar_of_mem {c : Char} (h : c ∈ special) : escapeChar c = ['\\', c] := if_pos h

theorem escapeChar_of_notMem {c : Char} (h : c ∉ special) : escapeChar c = [c] := if_neg h

/-- Each character is replaced once. -/
theorem escaped_eq (t : Text) :
    replaceChar '_' ['\\', '_'] (replaceChar '%' ['\\', '%'] (replaceChar '\\' ['\\', '\\'] t)) =
      escaped t := by
  unfold replaceChar escaped
  rw [List.flatMap_assoc, List.flatMap_assoc]
  refine List.flatMap_congr fun c _ => ?_
  by_cases hBackslash : c = '\\'
  · subst hBackslash
    rfl
  · rw [if_neg hBackslash, List.flatMap_singleton]
    by_cases hPercent : c = '%'
    · subst hPercent
      rfl
    · rw [if_neg hPercent, List.flatMap_singleton]
      by_cases hUnderscore : c = '_'
      · subst hUnderscore
        rfl
      · rw [if_neg hUnderscore, escapeChar_of_notMem (by simp [special, *])]

theorem searchPattern_eq (search : Text) : searchPattern search = '%' :: escaped search ++ ['%'] := by
  unfold searchPattern
  rw [escaped_eq]

/-! ## What it matches -/

section Like

variable {pattern t : Text} {c : Char}

/-- An escaped character stands for itself. -/
theorem sqlLike_escape : sqlLike '\\' ('\\' :: c :: pattern) t = true ↔
    ∃ rest, t = c :: rest ∧ sqlLike '\\' pattern rest = true := by
  cases t with
  | nil => simp [sqlLike]
  | cons d t =>
      simp only [sqlLike, if_true, Bool.and_eq_true, beq_iff_eq, List.cons.injEq]
      constructor
      · rintro ⟨rfl, hRest⟩
        exact ⟨t, ⟨rfl, rfl⟩, hRest⟩
      · rintro ⟨rest, ⟨rfl, rfl⟩, hRest⟩
        exact ⟨rfl, hRest⟩

/-- So does one without a meaning. -/
theorem sqlLike_plain (h : c ∉ special) : sqlLike '\\' (c :: pattern) t = true ↔
    ∃ rest, t = c :: rest ∧ sqlLike '\\' pattern rest = true := by
  simp only [special, List.mem_cons, List.not_mem_nil, or_false, not_or] at h
  obtain ⟨hEscape, hPercent, hUnderscore⟩ := h
  have hWild : (c == '_') = false := beq_eq_false_iff_ne.mpr hUnderscore
  cases t with
  | nil => simp [sqlLike, hEscape, hPercent]
  | cons d t =>
      rw [sqlLike.eq_def]
      simp only [if_neg hEscape, if_neg hPercent]
      simp only [hWild, Bool.false_or, Bool.and_eq_true, beq_iff_eq, List.cons.injEq]
      constructor
      · rintro ⟨rfl, hRest⟩
        exact ⟨t, ⟨rfl, rfl⟩, hRest⟩
      · rintro ⟨rest, ⟨rfl, rfl⟩, hRest⟩
        exact ⟨rfl, hRest⟩

theorem sqlLike_percent : sqlLike '\\' ('%' :: pattern) t = true ↔
    ∃ rest, rest <:+ t ∧ sqlLike '\\' pattern rest = true := by
  have hEscape : ¬ ('%' = '\\') := by decide
  rw [sqlLike.eq_def]
  simp only [if_neg hEscape, if_true]
  rw [List.any_eq_true]
  exact exists_congr fun rest => and_congr_left fun _ => List.mem_tails rest t

/-- An escaped text matches itself, character by character. -/
theorem sqlLike_escaped_append (search : Text) :
    ∀ t, sqlLike '\\' (escaped search ++ pattern) t = true ↔
      ∃ rest, t = search ++ rest ∧ sqlLike '\\' pattern rest = true := by
  induction search with
  | nil =>
      intro t
      simp [escaped]
  | cons c search ih =>
      intro t
      have hHead : sqlLike '\\' (escaped (c :: search) ++ pattern) t = true ↔
          ∃ rest, t = c :: rest ∧ sqlLike '\\' (escaped search ++ pattern) rest = true := by
        by_cases hSpecial : c ∈ special
        · rw [escaped, List.flatMap_cons, escapeChar_of_mem hSpecial]
          exact sqlLike_escape
        · rw [escaped, List.flatMap_cons, escapeChar_of_notMem hSpecial]
          exact sqlLike_plain hSpecial
      rw [hHead]
      constructor
      · rintro ⟨rest, rfl, hRest⟩
        obtain ⟨rest', rfl, hRest'⟩ := (ih rest).mp hRest
        exact ⟨rest', rfl, hRest'⟩
      · rintro ⟨rest, rfl, hRest⟩
        exact ⟨search ++ rest, rfl, (ih _).mpr ⟨rest, rfl, hRest⟩⟩

theorem sqlLike_searchPattern (search t : Text) :
    sqlLike '\\' (searchPattern search) t = true ↔ search <:+: t := by
  have hAll (rest : Text) : sqlLike '\\' ['%'] rest = true :=
    sqlLike_percent.mpr ⟨[], List.nil_suffix, rfl⟩
  rw [searchPattern_eq, List.cons_append, sqlLike_percent, List.infix_iff_prefix_suffix]
  constructor
  · rintro ⟨rest, hSuffix, hLike⟩
    obtain ⟨after, rfl, -⟩ := (sqlLike_escaped_append search rest).mp hLike
    exact ⟨search ++ after, List.prefix_append _ _, hSuffix⟩
  · rintro ⟨rest, ⟨after, rfl⟩, hSuffix⟩
    exact ⟨search ++ after, hSuffix,
      (sqlLike_escaped_append search _).mpr ⟨after, rfl, hAll after⟩⟩

end Like

/-! ## Lower case -/

section Lower

variable {sql : Sql} {f : Char → Text} (h : sql.MapsChars f)

include h

/-- Escaping and lower case do not get into each other's way. -/
theorem flatMap_escapeChar (c : Char) : (escapeChar c).flatMap f = escaped (f c) := by
  unfold escaped
  by_cases hSpecial : c ∈ special
  · have hEscape : f '\\' = ['\\'] := h.special '\\' List.mem_cons_self
    rw [escapeChar_of_mem hSpecial, List.flatMap_cons, hEscape, List.flatMap_singleton,
      h.special c hSpecial, List.flatMap_singleton, escapeChar_of_mem hSpecial]
    rfl
  · have hKept : ∀ d ∈ f c, escapeChar d = [d] := fun d hd =>
      escapeChar_of_notMem (h.others c hSpecial d hd)
    rw [escapeChar_of_notMem hSpecial, List.flatMap_singleton, List.flatMap_congr hKept,
      List.flatMap_singleton']

theorem lower_searchPattern (search : Text) :
    sql.lower (searchPattern search) = searchPattern (sql.lower search) := by
  have hPercent : f '%' = ['%'] := h.special '%' (by decide)
  have hEscaped : (escaped search).flatMap f = escaped (search.flatMap f) := by
    unfold escaped
    rw [List.flatMap_assoc, List.flatMap_assoc]
    exact List.flatMap_congr fun c _ => flatMap_escapeChar h c
  rw [h.lower, h.lower, searchPattern_eq, searchPattern_eq, List.flatMap_append,
    List.flatMap_cons, List.flatMap_singleton, hPercent, hEscaped]
  rfl

end Lower

theorem ilike_searchPattern {sql : Sql} {f : Char → Text} (h : sql.MapsChars f) (search t : Text) :
    ilike sql (searchPattern search) (some t) = true ↔ sql.lower search <:+: sql.lower t := by
  rw [ilike, Option.any_some, lower_searchPattern h]
  exact sqlLike_searchPattern _ _

/-- A search finds exactly the texts it occurs in, whatever characters it is made of. -/
theorem search_literal_iff (sql : Sql) (f : Char → Text) (h : sql.MapsChars f)
    (search t : Text) :
    (sqlLike '\\' (searchPattern search) t = true ↔ search <:+: t) ∧
      (ilike sql (searchPattern search) (some t) = true ↔ sql.lower search <:+: sql.lower t) :=
  ⟨sqlLike_searchPattern search t, ilike_searchPattern h search t⟩

/-! ### The ASCII mapping -/

theorem plainSql_mapsChars : plainSql.MapsChars Python.lowerChar where
  lower _ := rfl
  special := by decide
  others c hSpecial d hd := by
    unfold Python.lowerChar at hd
    split at hd
    · revert d
      decide
    · split at hd
      · revert d
        decide
      · rw [List.mem_singleton.mp hd]
        rcases Python.toLower_eq_or c with hSame | hLower
        · rw [hSame]
          exact hSpecial
        · intro hMem
          have hAll : ∀ d ∈ special, d.toNat < 97 := by decide
          have hLt := hAll _ hMem
          omega

theorem search_literal_wildcards :
    (sqlLike '\\' (searchPattern "100%\\_".toList) "Get 100%\\_ now".toList = true ↔
        "100%\\_".toList <:+: "Get 100%\\_ now".toList) ∧
      (ilike plainSql (searchPattern "100%\\_".toList) (some "Get 100%\\_ now".toList) = true ↔
        plainSql.lower "100%\\_".toList <:+: plainSql.lower "Get 100%\\_ now".toList) :=
  search_literal_iff plainSql Python.lowerChar plainSql_mapsChars _ _

end SavedOrganizer
