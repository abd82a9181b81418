import SavedOrganizer.Python.Text

/-!
# URLs in message text

`URL_PATTERN` is `(?:https?://|www\.)[^\s]+` with `re.IGNORECASE`, the same expression in
`scanner.py` and `categorizer.py`. A match starts with one of three words and runs to the
next white space. The words exclude each other, so the first alternative that fits is the
match, and trying them in order needs no backtracking.
-/

namespace SavedOrganizer

open Python

def MAX_URL_LENGTH : Nat := 2048

/-- `SIMPLE_URL_TRAILING_PUNCTUATION`. -/
def simpleUrlTrailingPunctuation : Text := ['.', ',', '!', '?', ';', ':', '"', '\'']

/-- `URL_CLOSING_PAIRS`. -/
def urlClosingPairs (c : Char) : Option Char :=
  if c = ')' then some '(' else if c = ']' then some '[' else if c = '}' then some '{' else none

/-- The loop of `_trim_url_punctuation` on the reversed text. -/
def trimReversed : Text → Text
  | [] => []
  | c :: rest =>
      if simpleUrlTrailingPunctuation.contains c then trimReversed rest
      else match urlClosingPairs c with
        | some opening =>
            if (c :: rest).count opening < (c :: rest).count c then trimReversed rest
            else c :: rest
        | none => c :: rest

/-- `_trim_url_punctuation`. -/
def trimUrlPunctuation (value : Text) : Text := (trimReversed (strip value).reverse).reverse

/-! ## `URL_PATTERN` -/

/-- The length of `https?://` or `www.` at the start of the text. -/
def urlPrefixLength (t : Text) : Option Nat :=
  if matchesWord "https://".toList t then some 8
  else if matchesWord "http://".toList t then some 7
  else if matchesWord "www.".toList t then some 4
  else none

/-- `URL_PATTERN.match`. -/
def matchUrl (t : Text) : Option Text :=
  (urlPrefixLength t).bind fun n =>
    let tail := (t.drop n).takeWhile (!isSpace ·)
    if tail.isEmpty then none else some (t.take n ++ tail)

/-- `URL_PATTERN.search(..).group(0)`. -/
def searchUrl : Text → Option Text
  | [] => none
  | c :: t => (matchUrl (c :: t)).or (searchUrl t)

/-- The matches of `URL_PATTERN` from left to right, after `skip` characters. -/
def findUrlsFrom : Nat → Text → List Text
  | _, [] => []
  | skip + 1, _ :: t => findUrlsFrom skip t
  | 0, c :: t =>
      match matchUrl (c :: t) with
      | some url => url :: findUrlsFrom (url.length - 1) t
      | none => findUrlsFrom 0 t

/-- `URL_PATTERN.findall`. -/
def findAllUrls (t : Text) : List Text := findUrlsFrom 0 t

/-- `_extract_url`. -/
def extractUrl (content : Option Text) : Option Text :=
  match content with
  | none => none
  | some text =>
      (searchUrl text).bind fun matched =>
        let extracted := trimUrlPunctuation matched
        let normalized :=
          if startsWith "www.".toList (lower extracted) then "https://".toList ++ extracted
          else extracted
        if normalized.length ≤ MAX_URL_LENGTH then some normalized else none

example : extractUrl (some "see (https://a.example/x).".toList) =
    some "https://a.example/x".toList := by rfl

end SavedOrganizer
