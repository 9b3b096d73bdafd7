import OpcodeCatalog.Proofs.Definitions.Names

/-!
# Canonical definition files

The names that a definition file can define are the texts that look like names already: on one line,
without blanks around them and in upper case.  A file that consists of nothing but the definitions
of such names, each a header with the name on the next line, defines exactly them.  So every
accepted file has a canonical form, and writing it out a second time changes nothing.

Main definitions:

* `Definitions.definitionsOf` — the file that defines some names and holds nothing else;
* `Definitions.canonicalForm` — that file for the names of a file.

Main results:

* `Definitions.names_definitionsOf` — **canonical names are read back from their definitions**;
* `Definitions.names_exactly_canonical` — **the lists of names that files define are those of
  different canonical names**.
-/

set_option autoImplicit false

namespace OpcodeCatalog

namespace Definitions

/-! ### Files of definitions alone -/

/-- The file that defines some names and holds nothing else. -/
def definitionsOf (ns : List Text) : Text :=
  ns.flatMap fun name => header ++ '\n' :: (name ++ ['\n'])

/-- The header word is a name like any other. -/
theorem isCanonical_header : IsCanonical header where
  ne_nil := by decide
  head_not_blank := by
    rintro c ⟨⟩
    decide
  last_not_blank := by
    rintro c ⟨⟩
    decide
  newline_not_mem := by decide
  upper_eq := by decide +kernel

/-- A line with a canonical name on it has that name. -/
theorem nameOn_of_isCanonical {name : Text} (h : IsCanonical name) : nameOn name = some name := by
  rw [nameOn, Text.trim_eq_self h.head_not_blank h.last_not_blank, if_neg h.ne_nil, h.upper_eq]

/-- A canonical name does not end in a carriage return, which is a blank. -/
theorem dropReturns_of_isCanonical {name : Text} (h : IsCanonical name) :
    Text.dropReturns name = name := by
  refine List.rdropWhile_eq_self_iff.2 fun hne hlast => ?_
  have hblank := h.last_not_blank _ (List.getLast?_eq_some_getLast hne)
  rw [beq_iff_eq.1 hlast] at hblank
  exact absurd hblank (by decide)

/-- The lines of such a file are headers and names in turn. -/
theorem logicalLines_definitionsOf {ns : List Text} (h : ∀ name ∈ ns, IsCanonical name) :
    logicalLines (definitionsOf ns) = ns.flatMap fun name => [header, name] := by
  induction ns with
  | nil => rfl
  | cons name ns ih =>
      have hname := h name (List.mem_cons_self ..)
      have hrest := ih fun name hmem => h name (List.mem_cons_of_mem _ hmem)
      have htext : definitionsOf (name :: ns) =
          header ++ '\n' :: (name ++ '\n' :: definitionsOf ns) := by
        simp [definitionsOf]
      rw [logicalLines] at hrest
      rw [htext, logicalLines, Text.lines_append_newline isCanonical_header.newline_not_mem,
        Text.lines_append_newline hname.newline_not_mem, List.map_cons, List.map_cons, hrest,
        dropReturns_of_isCanonical hname, dropReturns_of_isCanonical isCanonical_header]
      rfl

/-- The scan finds the names of such a file in order, also if one of them is the header word: that
stands where a name is expected. -/
theorem name?_scan_definitions {ns : List Text} (h : ∀ name ∈ ns, IsCanonical name)
    (number : Nat) :
    (scan number (ns.flatMap fun name => [header, name])).map Entry.name? = ns.map some := by
  induction ns generalizing number with
  | nil => rfl
  | cons name ns ih =>
      have hname := nameOn_of_isCanonical (h name (List.mem_cons_self ..))
      have hrest := ih (fun name hmem => h name (List.mem_cons_of_mem _ hmem)) (number + 2)
      rw [List.flatMap_cons, List.cons_append, List.singleton_append, scan, if_pos rfl,
        List.map_cons, List.map_cons, hrest, hname]

/-- **Canonical names are read back from their definitions**, as long as they differ. -/
theorem names_definitionsOf {ns : List Text} (hnodup : ns.Nodup)
    (h : ∀ name ∈ ns, IsCanonical name) : names (definitionsOf ns) = .ok ns := by
  rw [names, namesFrom_eq_collect, logicalLines_definitionsOf h, collect_eq_ok_iff]
  exact ⟨name?_scan_definitions h 1, hnodup, fun name _ => List.not_mem_nil⟩

/-- The file that defines the names of a file and holds nothing else. -/
def canonicalForm (t : Text) : Except Failure Text := (names t).map definitionsOf

/-- What an accepted file defines, its canonical form defines as well. -/
theorem names_definitionsOf_of_names {t : Text} {ns : List Text} (h : names t = .ok ns) :
    names (definitionsOf ns) = .ok ns :=
  names_definitionsOf (nodup_names h) fun _ hname => isCanonical_of_mem_names h hname

/-- **The lists of names that files define are those of different canonical names.**  Each of them
is read back from its definitions, so the canonical form of an accepted file defines the same names
and is its own canonical form. -/
theorem names_exactly_canonical :
    (∀ ns, (∃ t, names t = .ok ns) ↔ ns.Nodup ∧ ∀ name ∈ ns, IsCanonical name) ∧
      (∀ ns : List Text, ns.Nodup → (∀ name ∈ ns, IsCanonical name) →
        names (definitionsOf ns) = .ok ns) ∧
      ∀ t t', canonicalForm t = .ok t' → names t' = names t ∧ canonicalForm t' = .ok t' := by
  refine ⟨?_, fun ns => names_definitionsOf, ?_⟩
  · intro ns
    constructor
    · rintro ⟨t, ht⟩
      exact ⟨nodup_names ht, fun name hname => isCanonical_of_mem_names ht hname⟩
    · rintro ⟨hnodup, hcanonical⟩
      exact ⟨definitionsOf ns, names_definitionsOf hnodup hcanonical⟩
  · intro t t' ht'
    cases hnames : names t with
    | error failure => simp [canonicalForm, hnames, Except.map] at ht'
    | ok ns =>
        have hform : t' = definitionsOf ns := by
          simpa [canonicalForm, hnames, Except.map] using ht'.symm
        have hagain := names_definitionsOf_of_names hnames
        rw [hform, canonicalForm, hagain]
        exact ⟨rfl, rfl⟩

/-- The header word, a name with a carriage return inside, and a ligature that becomes two
letters. -/
example : canonicalForm "DEFINE_INSN\r\nDEFINE_INSN\nDEFINE_INSN\n a\rﬁ\t\n()\n".toList =
    .ok "DEFINE_INSN\nDEFINE_INSN\nDEFINE_INSN\nA\rFI\n".toList := by decide +kernel

end Definitions

end OpcodeCatalog
