import Semisweet.Core.Newtype

/-!
# The URLs of the turbopuffer store

`TurbopufferVectorStore` (`src/backends/vector_turbopuffer.rs`) names a namespace by a URL:
`upsert` and `delete` post to `{base}/v2/namespaces/{prefix}{ns}`, and `query` to that with
`/query` behind it. The name goes into the text unescaped, and the text is then read as a
URL. `Namespace::new` keeps out `/`, `\` and NUL; a `?` or a `#` in the name it lets pass, and
there the path of the URL ends.

## The model

The `url` crate reads the text as the URL Standard says: control characters and spaces at
the ends are stripped, the path ends at the first `?` or `#`, and each of its characters is
kept, dropped (a tab or a newline) or percent-encoded. What becomes of a character is the
parameter `UrlParser`. Every request of a store begins with the same base URL, so the
scheme and the host are left in front of the path.

## What is proved

* `no_alias_iff` — two namespaces have paths of their own exactly when the base and the names have
  no `?` and no `#`, and the names differ as URL text.
* `no_alias_fails` — two namespaces with one path.
-/

namespace Semisweet.Core

open Semisweet.Foundations

/-- What the URL parser does with the characters of a path. -/
structure UrlParser where
  /-- What is left of a character: nothing, the character, or its percent-encoding. -/
  encode : Char → List Char
  /-- A slash is kept. -/
  slash : encode '/' = ['/']
  /-- No other character becomes one, but for the backslash. -/
  safe : ∀ c, isUnsafe c = false → '/' ∉ encode c

/-- A C0 control or a space. -/
def isC0ControlOrSpace (c : Char) : Bool := c.toNat ≤ 0x20

/-- The characters that end the path. -/
def endsPath (c : Char) : Bool := c == '?' || c == '#'

/-- The path of a URL, with the scheme and the host in front. -/
def UrlParser.path (parser : UrlParser) (url : String) : List Char :=
  ((strip isC0ControlOrSpace url.toList).takeWhile fun c => !endsPath c).flatMap parser.encode

/-- `TurbopufferVectorStore`: where it posts to. -/
structure TurbopufferVectorStore where
  /-- The base URL. -/
  baseUrl : String
  /-- What every physical namespace begins with. -/
  namespacePrefix : String

namespace TurbopufferVectorStore

/-- `DEFAULT_NAMESPACE_PREFIX`. -/
def defaultNamespacePrefix : String := "semisweet-"

/-- `TurbopufferVectorStore::new`, with the base URL of the environment or the default one. -/
def new (baseUrl : String) : TurbopufferVectorStore := ⟨baseUrl, defaultNamespacePrefix⟩

variable (self : TurbopufferVectorStore)

/-- `TurbopufferVectorStore::physical_namespace`. -/
def physicalNamespace (ns : Namespace) : String := s!"{self.namespacePrefix}{ns.val}"

/-- The URL `upsert` and `delete` post to. -/
def upsertUrl (ns : Namespace) : String :=
  s!"{self.baseUrl}/v2/namespaces/{self.physicalNamespace ns}"

/-- The URL `query` posts to. -/
def queryUrl (ns : Namespace) : String :=
  s!"{self.baseUrl}/v2/namespaces/{self.physicalNamespace ns}/query"

end TurbopufferVectorStore

/-! ### Text in a URL -/

/-- There is no `?` and no `#` in the text. -/
def Unmarked (text : String) : Prop := text.toList.any endsPath = false

instance (text : String) : Decidable (Unmarked text) :=
  inferInstanceAs (Decidable (text.toList.any endsPath = false))

variable (parser : UrlParser)

/-- Text as it stands in a path: what is before a `?` or a `#`, encoded. -/
def urlText (text : List Char) : List Char :=
  (text.takeWhile fun c => !endsPath c).flatMap parser.encode

/-- A namespace at the end of a URL, where the control characters at its end are stripped. -/
def lastText (ns : Namespace) : List Char :=
  urlText parser (ns.val.toList.rdropWhile isC0ControlOrSpace)

/-- A namespace inside a URL. -/
def innerText (ns : Namespace) : List Char := urlText parser ns.val.toList

/-- **The two namespaces do not alias**: requests of one and the other go to different paths, and a
query of either goes to no path that any namespace is upserted to. -/
def NoAlias (baseUrl : String) (a b : Namespace) : Prop :=
  let store := TurbopufferVectorStore.new baseUrl
  parser.path (store.upsertUrl a) ≠ parser.path (store.upsertUrl b) ∧
    parser.path (store.queryUrl a) ≠ parser.path (store.queryUrl b) ∧
      (∀ c, parser.path (store.queryUrl a) ≠ parser.path (store.upsertUrl c)) ∧
        ∀ c, parser.path (store.queryUrl b) ≠ parser.path (store.upsertUrl c)

theorem takeWhile_append_cons {α : Type} {q : α → Bool} {e : α} (he : q e = false) (x y : List α) :
    (x ++ e :: y).takeWhile q = x.takeWhile q := by
  induction x with
  | nil => simp [he]
  | cons a x ih =>
    by_cases ha : q a = true
    · rw [List.cons_append, List.takeWhile_cons_of_pos ha, List.takeWhile_cons_of_pos ha, ih]
    · rw [List.cons_append, List.takeWhile_cons_of_neg ha, List.takeWhile_cons_of_neg ha]

variable {parser}

/-- What comes after text without a `?` or a `#` is in the path. -/
theorem urlText_append {x : List Char} (hx : x.any endsPath = false) (y : List Char) :
    urlText parser (x ++ y) = x.flatMap parser.encode ++ urlText parser y := by
  have hkept : ∀ c ∈ x, (!endsPath c) = true := by simpa [List.any_eq_false] using hx
  rw [urlText, List.takeWhile_append_of_pos hkept, List.flatMap_append, urlText]

/-- A `?` or a `#` cuts off what comes after it. -/
theorem urlText_cut {e : Char} (he : endsPath e = true) (x y : List Char) :
    urlText parser (x ++ e :: y) = urlText parser x := by
  rw [urlText, takeWhile_append_cons (q := fun c => !endsPath c) (by simp [he]), urlText]

theorem urlText_append_marked {x : List Char} (hx : x.any endsPath = true) (y : List Char) :
    urlText parser (x ++ y) = urlText parser x := by
  obtain ⟨e, he, hmark⟩ := List.any_eq_true.mp hx
  obtain ⟨u, v, rfl⟩ := List.append_of_mem he
  rw [List.append_assoc, List.cons_append, urlText_cut hmark, urlText_cut hmark]

/-- Stripping takes no `?` and no `#` away. -/
theorem endsPath_of_strip {c : Char} (h : isC0ControlOrSpace c = true) : endsPath c = false := by
  simp only [isC0ControlOrSpace, decide_eq_true_eq] at h
  simp only [endsPath, Bool.or_eq_false_iff, beq_eq_false_iff_ne]
  constructor <;> rintro rfl <;> simp at h

theorem any_dropWhile (x : List Char) :
    (x.dropWhile isC0ControlOrSpace).any endsPath = x.any endsPath := by
  induction x with
  | nil => rfl
  | cons c x ih =>
    by_cases hc : isC0ControlOrSpace c = true
    · rw [List.dropWhile_cons_of_pos hc, ih, List.any_cons, endsPath_of_strip hc, Bool.false_or]
    · rw [List.dropWhile_cons_of_neg hc]

/-- A name with a `?` or a `#` ends there, whether or not its end is stripped. -/
theorem urlText_rdropWhile {x : List Char} (hx : x.any endsPath = true) :
    urlText parser (x.rdropWhile isC0ControlOrSpace) = urlText parser x := by
  obtain ⟨e, he, hmark⟩ := List.any_eq_true.mp hx
  obtain ⟨u, v, rfl⟩ := List.append_of_mem he
  have hkept : isC0ControlOrSpace e = false := by
    by_contra hstrip
    rw [endsPath_of_strip (by simpa using hstrip)] at hmark
    cases hmark
  rw [rdropWhile_append_cons _ hkept, urlText_cut hmark, urlText_cut hmark]

/-- There is no slash in a name. -/
theorem slash_notMem_urlText {x : List Char} (hx : ∀ c ∈ x, isUnsafe c = false) :
    '/' ∉ urlText parser x := by
  intro hmem
  obtain ⟨c, hc, hslash⟩ := List.mem_flatMap.mp hmem
  exact parser.safe c (hx c ((List.takeWhile_sublist _).subset hc)) hslash

/-! ### The paths of a store -/

/-- What the store puts between the base URL and the name, but for its first and last
characters. -/
def between : List Char := "v2/namespaces/semisweet".toList

/-- **What precedes the name in every path**, if the base URL has no `?` and no `#`. -/
def pathHead (parser : UrlParser) (baseUrl : String) : List Char :=
  (baseUrl.toList.dropWhile isC0ControlOrSpace ++ '/' :: (between ++ ['-'])).flatMap parser.encode

theorem path_eq (url : String) :
    parser.path url = urlText parser (strip isC0ControlOrSpace url.toList) := rfl

theorem toList_fixed :
    "/v2/namespaces/".toList ++ "semisweet-".toList = '/' :: (between ++ ['-']) := by
  decide

theorem toList_upsertUrl (baseUrl : String) (ns : Namespace) :
    ((TurbopufferVectorStore.new baseUrl).upsertUrl ns).toList =
      baseUrl.toList ++ '/' :: (between ++ '-' :: ns.val.toList) := by
  show (baseUrl ++ "/v2/namespaces/" ++ ("semisweet-" ++ ns.val)).toList = _
  rw [String.toList_append, String.toList_append, String.toList_append, List.append_assoc,
    ← List.append_assoc "/v2/namespaces/".toList, toList_fixed, List.cons_append,
    List.append_assoc, List.singleton_append]

theorem toList_queryUrl (baseUrl : String) (ns : Namespace) :
    ((TurbopufferVectorStore.new baseUrl).queryUrl ns).toList =
      baseUrl.toList ++ '/' :: (between ++ '-' :: (ns.val.toList ++ "/query".toList)) := by
  show ((TurbopufferVectorStore.new baseUrl).upsertUrl ns ++ "/query").toList = _
  rw [String.toList_append, toList_upsertUrl, List.append_assoc, List.cons_append,
    List.append_assoc, List.cons_append]

variable {baseUrl : String} {ns : Namespace}

/-- The path of text that begins with the base URL and the fixed part. -/
theorem path_of_toList {url : String} {name : List Char}
    (h : url.toList = baseUrl.toList ++ '/' :: (between ++ '-' :: name)) :
    parser.path url = if Unmarked baseUrl then
      pathHead parser baseUrl ++ urlText parser (name.rdropWhile isC0ControlOrSpace)
    else urlText parser (baseUrl.toList.dropWhile isC0ControlOrSpace) := by
  rw [path_eq, h, strip_append _ (by decide) (by decide)]
  split
  · rename_i hbase
    have hhead : (baseUrl.toList.dropWhile isC0ControlOrSpace ++ '/' :: (between ++ ['-'])).any
        endsPath = false := by
      rw [List.any_append, any_dropWhile, show baseUrl.toList.any endsPath = false from hbase]
      decide
    rw [pathHead, ← urlText_append hhead]
    simp
  · rename_i hbase
    have hmarked : (baseUrl.toList.dropWhile isC0ControlOrSpace).any endsPath = true := by
      rw [any_dropWhile]
      simpa [Unmarked] using hbase
    exact urlText_append_marked hmarked _

theorem path_upsertUrl (hbase : Unmarked baseUrl) (ns : Namespace) :
    parser.path ((TurbopufferVectorStore.new baseUrl).upsertUrl ns) =
      pathHead parser baseUrl ++ lastText parser ns := by
  rw [path_of_toList (toList_upsertUrl baseUrl ns), if_pos hbase, lastText]

theorem path_queryUrl (hbase : Unmarked baseUrl) (ns : Namespace) :
    parser.path ((TurbopufferVectorStore.new baseUrl).queryUrl ns) =
      pathHead parser baseUrl ++ urlText parser (ns.val.toList ++ "/query".toList) := by
  rw [path_of_toList (toList_queryUrl baseUrl ns), if_pos hbase]
  have hend : (ns.val.toList ++ "/query".toList).rdropWhile isC0ControlOrSpace =
      ns.val.toList ++ "/query".toList :=
    rdropWhile_append_cons isC0ControlOrSpace (a := '/') (by decide) _ "query".toList
  rw [hend]

/-- A query of a name without a `?` or a `#` goes to the path of the name, and on. -/
theorem urlText_query (hns : Unmarked ns.val) :
    urlText parser (ns.val.toList ++ "/query".toList) =
      innerText parser ns ++ '/' :: urlText parser "query".toList := by
  have hslash : urlText parser "/query".toList = '/' :: urlText parser "query".toList := by
    rw [show "/query".toList = ['/'] ++ "query".toList by decide, urlText_append (by decide),
      List.flatMap_singleton, parser.slash, List.singleton_append]
  have hinner : innerText parser ns = ns.val.toList.flatMap parser.encode := by
    rw [innerText, ← List.append_nil ns.val.toList, urlText_append hns]
    simp [urlText]
  rw [urlText_append hns, hslash, hinner]

theorem slash_notMem_lastText (parser : UrlParser) (ns : Namespace) :
    '/' ∉ lastText parser ns := by
  apply slash_notMem_urlText
  intro c hc
  have hmem : c ∈ ns.val.toList := (List.rdropWhile_prefix _ _).subset hc
  simpa using List.any_eq_false.mp ns.safe c hmem

/-- **A query goes to no path that is upserted to exactly when its name has no `?` and no `#`.** -/
theorem query_ne_upsert_iff (hbase : Unmarked baseUrl) (ns : Namespace) :
    (∀ c, parser.path ((TurbopufferVectorStore.new baseUrl).queryUrl ns) ≠
      parser.path ((TurbopufferVectorStore.new baseUrl).upsertUrl c)) ↔ Unmarked ns.val := by
  constructor
  · intro h
    by_contra hmark
    have hmark : ns.val.toList.any endsPath = true := by simpa [Unmarked] using hmark
    -- The query goes where the name itself is upserted.
    apply h ns
    rw [path_queryUrl hbase, path_upsertUrl hbase, urlText_append_marked hmark, lastText,
      urlText_rdropWhile hmark]
  · intro hns c heq
    rw [path_queryUrl hbase, path_upsertUrl hbase, urlText_query hns] at heq
    have hslash := slash_notMem_lastText parser c
    rw [← List.append_cancel_left heq] at hslash
    simp at hslash

/-- Queries of names without a `?` or a `#` go to one path when the names are one URL text. -/
theorem query_eq_query_iff {a b : Namespace} (hbase : Unmarked baseUrl) (ha : Unmarked a.val)
    (hb : Unmarked b.val) :
    parser.path ((TurbopufferVectorStore.new baseUrl).queryUrl a) =
      parser.path ((TurbopufferVectorStore.new baseUrl).queryUrl b) ↔
        innerText parser a = innerText parser b := by
  rw [path_queryUrl hbase, path_queryUrl hbase, urlText_query ha, urlText_query hb,
    List.append_cancel_left_eq, List.append_cancel_right_eq]

/-- **When two namespaces do not alias**: the base URL and the names have no `?` and no `#`, and the
names differ as URL text, at the end of a URL and inside one. -/
theorem no_alias_iff (parser : UrlParser) (baseUrl : String) (a b : Namespace) :
    NoAlias parser baseUrl a b ↔ Unmarked baseUrl ∧ Unmarked a.val ∧ Unmarked b.val ∧
      lastText parser a ≠ lastText parser b ∧ innerText parser a ≠ innerText parser b := by
  by_cases hbase : Unmarked baseUrl
  · simp only [NoAlias, query_ne_upsert_iff hbase]
    simp only [path_upsertUrl hbase, hbase, true_and, ne_eq, List.append_cancel_left_eq]
    constructor
    · rintro ⟨hlast, hquery, ha, hb⟩
      exact ⟨ha, hb, hlast, fun h => hquery ((query_eq_query_iff hbase ha hb).mpr h)⟩
    · rintro ⟨ha, hb, hlast, hinner⟩
      exact ⟨hlast, fun h => hinner ((query_eq_query_iff hbase ha hb).mp h), ha, hb⟩
  · -- The path ends in the base URL, whatever the name.
    simp only [hbase, false_and, iff_false]
    rintro ⟨hne, -⟩
    apply hne
    rw [path_of_toList (toList_upsertUrl baseUrl a), path_of_toList (toList_upsertUrl baseUrl b),
      if_neg hbase, if_neg hbase]

namespace Sample

/-- A parser of names of letters and marks, all of which it keeps. -/
def plain : UrlParser where
  encode c := [c]
  slash := rfl
  safe c h := by
    rw [List.mem_singleton]
    rintro rfl
    cases h

/-- The namespace `x?y`. -/
def nsXY : Namespace := ⟨"x?y", by decide, by decide, by decide, by decide⟩

/-- The namespace `x?z`. -/
def nsXZ : Namespace := ⟨"x?z", by decide, by decide, by decide, by decide⟩

end Sample

/-- **Two namespaces with one path**: `x?y` and `x?z` are both upserted to `semisweet-x`. -/
theorem no_alias_fails : ¬ ∀ (parser : UrlParser) (baseUrl : String) (a b : Namespace), a ≠ b →
    NoAlias parser baseUrl a b := by
  intro hall
  have hne : Sample.nsXY ≠ Sample.nsXZ := by decide
  obtain ⟨hpath, -⟩ := hall Sample.plain "https://api.turbopuffer.com" _ _ hne
  have htext : lastText Sample.plain Sample.nsXY = lastText Sample.plain Sample.nsXZ := by decide
  apply hpath
  rw [path_upsertUrl (by decide), path_upsertUrl (by decide), htext]

end Semisweet.Core
