import OpcodeCatalog.Proofs.Definitions.Grammar
import OpcodeCatalog.Proofs.Text.UpperCase

/-!
# The names of an accepted definition file

Names are cut out of single lines, trimmed and put into upper case, and no two of them are equal.
So a name looks like a name whatever the file looks like: it stands on one line, without blanks
around it and in upper case.

Main definitions:

* `Definitions.IsCanonical` — a text that is a name as it stands.

Main results:

* `Definitions.names_eq_map_headers` — the names are those after the headers, in order;
* `Definitions.nodup_names` — they differ;
* `Definitions.isCanonical_of_mem_names` — **they are canonical**.
-/

set_option autoImplicit false

namespace OpcodeCatalog

namespace Definitions

/-! ### Lines without line feeds -/

/-- The lines of a text have no line feeds in them. -/
theorem newline_not_mem_textLines {t line : Text} (h : line ∈ textLines t) : '\n' ∉ line := by
  rw [← logicalLines_eq_textLines, logicalLines] at h
  obtain ⟨full, hfull, rfl⟩ := List.mem_map.1 h
  rw [Text.dropReturns_eq_rdropWhile]
  exact fun hnewline => Text.newline_not_mem_of_mem_lines hfull
    ((List.rdropWhile_prefix _ _).mem hnewline)

/-! ### Canonical names -/

/-- A text that is a name as it stands. -/
structure IsCanonical (name : Text) : Prop where
  ne_nil : name ≠ []
  head_not_blank : ∀ c ∈ name.head?, Text.isBlank c = false
  last_not_blank : ∀ c ∈ name.getLast?, Text.isBlank c = false
  newline_not_mem : '\n' ∉ name
  upper_eq : Text.upper name = name

/-- A name that a line has is canonical, if there is no line feed on the line. -/
theorem isCanonical_of_nameOn {line name : Text} (h : nameOn line = some name)
    (hnewline : '\n' ∉ line) : IsCanonical name := by
  unfold nameOn at h
  split at h
  · simp at h
  · rename_i htrim
    rw [← Option.some.inj h]
    refine ⟨?_, ?_, ?_, ?_, Text.upper_upper _⟩
    · exact fun hnil => htrim (Text.upper_eq_nil_iff.1 hnil)
    · exact Text.isBlank_head?_upper (Text.isBlank_head?_trim line)
    · exact Text.isBlank_getLast?_upper (Text.isBlank_getLast?_trim line)
    · exact fun hmem => hnewline
        (Text.mem_of_mem_trim (Text.mem_of_mem_upper hmem (by decide)))

/-! ### Names -/

variable {t : Text} {ns : List Text} {name : Text}

/-- The names of an accepted file are those after its headers. -/
theorem names_eq_map_headers (h : names t = .ok ns) :
    ns = (headers (textLines t)).map (nameAfter (textLines t)) := by
  rw [names_eq_collect_headers, collect_entries_eq_ok_iff (nodup_headers _)] at h
  exact h.2.2

theorem nodup_names (h : names t = .ok ns) : ns.Nodup := by
  rw [names_eq_collect_headers, collect_eq_ok_iff] at h
  exact h.2.1

/-- Every name of a file is the name on one of its lines. -/
theorem exists_nameOn_of_mem_names (h : names t = .ok ns) (hname : name ∈ ns) :
    ∃ line ∈ textLines t, nameOn line = some name := by
  rw [names_eq_collect_headers, collect_eq_ok_iff] at h
  have hsome : some name ∈ ns.map some := List.mem_map_of_mem hname
  rw [← h.1, List.map_map] at hsome
  obtain ⟨i, -, hi⟩ := List.mem_map.1 hsome
  obtain ⟨line, hline, hon⟩ := Option.bind_eq_some_iff.1 hi
  exact ⟨line, List.mem_of_getElem? hline, hon⟩

/-- The names of a file are canonical. -/
theorem isCanonical_of_mem_names (h : names t = .ok ns) (hname : name ∈ ns) : IsCanonical name := by
  obtain ⟨line, hline, hon⟩ := exists_nameOn_of_mem_names h hname
  exact isCanonical_of_nameOn hon (newline_not_mem_textLines hline)

end Definitions

end OpcodeCatalog
