import Dvws.Calendar.Dates
import Dvws.Handlers.HtmlEscape
import Dvws.Text.Enclosed

/-!
# The links of a listing

A browser finds the links of a page by their marks, and replaces the entities in what they refer to
(`links`). Of a listing it finds the entries of the directory, one after the other and whatever
bytes their names have (`links_autoindex_page`): the title, the style sheet and the other columns
hold no mark of a link, and neither does an escaped name.
-/

namespace Dvws.StaticFiles

open Files Html Text

/-- What the links of a page refer to. -/
def links (page : Bytes) : List Bytes := (enclosed (lit "<a href=\"") 34 page).map replaceEntities

/-- What the listing of a directory shows of an entry: its name, and a slash for a directory. -/
def displayed (plat : Platform) (fsDir name : Bytes) : Bytes :=
  let sep := if fsDir.getLast? = some 47 then [] else [47]
  name ++
    if (stat plat.files plat.cwd (fsDir ++ sep ++ name)).any fun found => found.2.isDir then [47]
    else []

section Reading

variable {text rest : Bytes}

/-- A text without the mark of a link has none. -/
theorem links_append (h : Avoids (lit "<a href=\"") text) (rest : Bytes) :
    links (text ++ rest) = links rest := by
  rw [links, enclosed_append h, ← links]

/-- A text without the character that opens an element has no link. -/
theorem links_plain (h : 60 ∉ text) (rest : Bytes) : links (text ++ rest) = links rest :=
  links_append (avoids_of_not_mem h) rest

/-- An escaped text opens no element and ends no attribute. -/
theorem not_mem_html_escape (s : Bytes) : 60 ∉ htmlEscape s ∧ 34 ∉ htmlEscape s := by
  have hfree {c : UInt8} (hc : c ∈ htmlEscape s) : c ≠ 60 ∧ c ≠ 62 ∧ c ≠ 34 := by
    obtain ⟨d, -, hd⟩ := List.mem_flatMap.mp hc
    exact Echo.not_special_of_mem_escape_byte hd
  exact ⟨fun hmem => (hfree hmem).1 rfl, fun hmem => (hfree hmem).2.2 rfl⟩

/-- A link refers to what was escaped. -/
theorem links_of_link (name rest : Bytes) :
    links (lit "<a href=\"" ++ htmlEscape name ++ 34 :: rest) = name :: links rest := by
  obtain ⟨hopens, hends⟩ := not_mem_html_escape name
  have hmark : (60 : UInt8) ∉ lit "a href=\"" := by decide
  rw [links, show lit "<a href=\"" = 60 :: lit "a href=\"" by decide,
    enclosed_mark hmark hopens (by decide) hends, List.map_cons]
  exact congrArg₂ _ (Echo.replace_html_escape name) rfl

end Reading

/-! ## The lines -/

/-- A number opens no element. -/
theorem not_mem_decimal (n : Nat) : 60 ∉ toDecimal n := fun hmem =>
  absurd (is_digit_of_mem_to_decimal hmem) (by decide)

/-- Two digits open no element. -/
theorem not_mem_two_digits (n : Nat) : 60 ∉ twoDigits n := by
  unfold twoDigits
  split
  · rw [List.mem_cons, not_or]
    exact ⟨by decide, not_mem_decimal n⟩
  · exact not_mem_decimal n

/-- The name of a month opens no element. -/
theorem not_mem_month_name (month : Nat) : 60 ∉ monthName month := by
  have htable : ∀ name ∈ [lit "Jan", lit "Feb", lit "Mar", lit "Apr", lit "May", lit "Jun",
      lit "Jul", lit "Aug", lit "Sep", lit "Oct", lit "Nov", lit "Dec"], 60 ∉ name := by
    decide
  rw [monthName, List.getD_eq_getElem?_getD]
  cases hname : [lit "Jan", lit "Feb", lit "Mar", lit "Apr", lit "May", lit "Jun", lit "Jul",
      lit "Aug", lit "Sep", lit "Oct", lit "Nov", lit "Dec"][month - 1]? with
  | none => exact List.not_mem_nil
  | some name => exact htable name (List.mem_of_getElem? hname)

/-- A year opens no element. -/
theorem not_mem_year_text (year : Int) : 60 ∉ yearText year := by
  cases year with
  | ofNat n => exact not_mem_decimal n
  | negSucc n =>
      rw [year_text_neg_succ, List.mem_cons, not_or]
      exact ⟨by decide, not_mem_decimal _⟩

/-- The column of the times opens no element. -/
theorem not_mem_time_column (tm : Tm) : 60 ∉ twoDigits tm.day ++ lit "-" ++ monthName tm.month ++
    lit "-" ++ yearText tm.year ++ lit " " ++ hourMinute tm := by
  have hdash : (60 : UInt8) ∉ lit "-" := by decide
  have hblank : (60 : UInt8) ∉ lit " " := by decide
  have hcolon : (60 : UInt8) ∉ lit ":" := by decide
  simp only [hourMinute, List.mem_append, not_or]
  exact ⟨⟨⟨⟨⟨⟨not_mem_two_digits _, hdash⟩, not_mem_month_name _⟩, hdash⟩, not_mem_year_text _⟩,
    hblank⟩, ⟨not_mem_two_digits _, hcolon⟩, not_mem_two_digits _⟩

/-- The columns of a line open no element, if neither of them does. -/
theorem not_mem_columns (pad : Nat) {mtime size : Bytes} (hmtime : 60 ∉ mtime)
    (hsize : 60 ∉ size) :
    60 ∉ List.replicate pad 32 ++ mtime ++ lit "  " ++ size ++ lit "\n" := by
  have hspaces : (60 : UInt8) ∉ List.replicate pad (32 : UInt8) := fun hmem =>
    absurd (List.eq_of_mem_replicate hmem) (by decide)
  have hblank : (60 : UInt8) ∉ lit "  " := by decide
  have hend : (60 : UInt8) ∉ lit "\n" := by decide
  simp only [List.mem_append, not_or]
  exact ⟨⟨⟨⟨hspaces, hmtime⟩, hblank⟩, hsize⟩, hend⟩

/-- A line of the listing is a link, its text, and columns that open no element. -/
theorem listing_row_eq (plat : Platform) (fsDir name : Bytes) :
    ∃ columns, 60 ∉ columns ∧ listingRow plat fsDir name =
      lit "<a href=\"" ++ htmlEscape (displayed plat fsDir name) ++
        34 :: (62 :: htmlEscape (displayed plat fsDir name) ++ lit "</a>" ++ columns) := by
  have hquote : lit "\">" = [34, 62] := by decide
  have hdash : (60 : UInt8) ∉ lit "-" := by decide
  have hcolumns {mtime size : Bytes} (hmtime : 60 ∉ mtime) (hsize : 60 ∉ size) :=
    not_mem_columns (if (displayed plat fsDir name).length < 52 then
      52 - (displayed plat fsDir name).length else 1) hmtime hsize
  cases hfound : stat plat.files plat.cwd
      (fsDir ++ (if fsDir.getLast? = some 47 then [] else [47]) ++ name) with
  | none =>
      refine ⟨_, hcolumns hdash hdash, ?_⟩
      simp only [listingRow, displayed, hfound]
      simp only [hquote, List.append_assoc, List.cons_append, List.nil_append]
  | some found =>
      have hsize : 60 ∉ if found.2.isDir = true then lit "-" else toDecimal found.2.size := by
        split
        · exact hdash
        · exact not_mem_decimal _
      have htime := not_mem_time_column (gmtime (found.2.mtime + plat.utcOffset found.2.mtime))
      refine ⟨_, hcolumns htime hsize, ?_⟩
      simp only [listingRow, displayed, hfound]
      simp only [hquote, List.append_assoc, List.cons_append, List.nil_append, Option.any_some]

/-- The reader takes the entry from a line. -/
theorem links_listing_row (plat : Platform) (fsDir name rest : Bytes) :
    links (listingRow plat fsDir name ++ rest) = displayed plat fsDir name :: links rest := by
  obtain ⟨columns, hcolumns, hrow⟩ := listing_row_eq plat fsDir name
  have hclosed : Avoids (lit "<a href=\"") (lit "</a>") := by decide
  have htext : 60 ∉ 62 :: htmlEscape (displayed plat fsDir name) := by
    rw [List.mem_cons, not_or]
    exact ⟨by decide, (not_mem_html_escape _).1⟩
  rw [hrow, List.append_assoc, List.cons_append, links_of_link, List.append_assoc,
    List.append_assoc, links_plain htext, links_append hclosed, links_plain hcolumns]

/-- The links of the lines are the names that the lines show, one after the other. -/
theorem links_listing_rows (plat : Platform) (fsDir : Bytes) (names : List Bytes) (rest : Bytes) :
    links (names.flatMap (listingRow plat fsDir) ++ rest) =
      names.map (displayed plat fsDir) ++ links rest := by
  induction names with
  | nil => rfl
  | cons name names ih =>
      rw [List.flatMap_cons, List.append_assoc, links_listing_row, ih]
      rfl

/-- A listing links to the entries of the directory and to nothing else. -/
theorem links_autoindex_page {plat : Platform} {fsDir : Bytes} {names : List Bytes}
    (h : listedNames plat fsDir = some names) (uri : Bytes) :
    links (autoindexPage plat fsDir uri) = names.map (displayed plat fsDir) := by
  have huri := (not_mem_html_escape uri).1
  unfold autoindexPage
  rw [h]
  simp only [List.append_assoc]
  -- the fixed parts hold elements, but no link; the two copies of the path hold no element
  simp (disch := decide +kernel) only [links_append, links_plain huri, links_listing_rows]
  exact List.append_nil _

end Dvws.StaticFiles
