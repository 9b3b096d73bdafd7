import OpcodeCatalog.Proofs.Listing.Columns
import OpcodeCatalog.Proofs.Listing.Instructions
import OpcodeCatalog.Proofs.Listing.Json.RoundTrip

/-!
# The instructions behind a listing

What is written for a definition file determines the names of its instructions, in order, if none of
them is left out.  An instruction bears its own name on the last line of its number, whatever line
is put in front of that one, so the names are the last names of the numbers 0, 1, 2 and so on.  From
JSON the lines are known as they are.  From text they are known up to spaces at the end of a name,
and only a plain name can end in one.

Main definitions:

* `Listing.nameAt` — the name on the last line of a position.

Main results:

* `Listing.nameAt_byPosition` — the name of a position is that of the instruction;
* `Listing.eq_of_map_byPosition` — lines known up to some change of names determine the names;
* `Listing.names_eq_of_taken_eq` — **a listing determines the instructions**.
-/

set_option autoImplicit false

namespace OpcodeCatalog

namespace Listing

/-! ### The lines of one position -/

/-- The lines of a name are all at its position. -/
theorem filter_linesAt (name : Text) (start position : Nat) :
    (linesAt name start).filter (·.2 == position) =
      if start = position then linesAt name start else [] := by
  split
  · rename_i hstart
    rw [List.filter_eq_self]
    intro line hline
    rw [snd_of_mem_linesAt hline, hstart, beq_self_eq_true]
  · rename_i hstart
    rw [List.filter_eq_nil_iff]
    intro line hline
    simpa [snd_of_mem_linesAt hline] using hstart

theorem filter_zipIdx (names : List Text) (start position : Nat) :
    ((names.zipIdx start).flatMap fun entry => linesAt entry.1 entry.2).filter
        (·.2 == position) =
      if start ≤ position then
        names[position - start]?.elim [] fun name => linesAt name position
      else [] := by
  induction names generalizing start with
  | nil => simp
  | cons first names ih =>
      rw [List.zipIdx_cons, List.flatMap_cons, List.filter_append, filter_linesAt, ih]
      rcases Nat.lt_trichotomy start position with hlt | rfl | hgt
      · obtain ⟨offset, rfl⟩ := Nat.exists_eq_add_of_lt hlt
        simp [Nat.add_assoc, Nat.add_sub_add_left]
      · simp
      · simp [Nat.not_le.2 hgt, Nat.ne_of_gt hgt, Nat.not_le.2 (Nat.lt_succ_of_lt hgt)]

/-- The lines of a position are those of the name that stands there. -/
theorem filter_byPosition (names : List Text) (position : Nat) :
    (byPosition names).filter (·.2 == position) =
      names[position]?.elim [] fun name => linesAt name position := by
  rw [byPosition, filter_zipIdx, if_pos (Nat.zero_le _), Nat.sub_zero]

/-- The last line of a name bears the name itself. -/
theorem getLast?_linesAt {name : Text} (h : name.head? ≠ some '<') (position : Nat) :
    (linesAt name position).getLast? = some (name, position) := by
  obtain ⟨stem, hstem, rfl⟩ | hplain := plain_or_not_plain h
  · rw [linesAt_append_plain hstem]
    rfl
  · rw [linesAt_of_not_plain h hplain]
    rfl

/-! ### The name of a position -/

section NameAt

variable {α : Type}

/-- The name on the last line of a position. -/
def nameAt (lines : List (α × Nat)) (position : Nat) : Option α :=
  (lines.filter (·.2 == position)).getLast?.map Prod.fst

/-- Changing the names changes the name of a position. -/
theorem nameAt_map {β : Type} (f : α → β) (lines : List (α × Nat)) (position : Nat) :
    nameAt (lines.map (Prod.map f id)) position = (nameAt lines position).map f := by
  simp [nameAt, List.filter_map, List.getLast?_map, Function.comp_def]

end NameAt

/-- The name of a position is that of the instruction. -/
theorem nameAt_byPosition {names : List Text} (h : ∀ name ∈ names, name.head? ≠ some '<')
    (position : Nat) : nameAt (byPosition names) position = names[position]? := by
  rw [nameAt, filter_byPosition]
  cases hname : names[position]? with
  | none => rfl
  | some name =>
      rw [Option.elim_some, getLast?_linesAt (h name (List.mem_of_getElem? hname)),
        Option.map_some]

/-- Lines that are known up to some change of names determine the names, if the change tells these
names apart. -/
theorem eq_of_map_byPosition {β : Type} {f : Text → β} {names names' : List Text}
    (hvisible : ∀ name ∈ names, name.head? ≠ some '<')
    (hvisible' : ∀ name ∈ names', name.head? ≠ some '<')
    (hf : ∀ name ∈ names, ∀ name' ∈ names', f name = f name' → name = name')
    (h : (byPosition names).map (Prod.map f id) = (byPosition names').map (Prod.map f id)) :
    names = names' := by
  have hmap : ∀ position : Nat, names[position]?.map f = names'[position]?.map f := by
    intro position
    rw [← nameAt_byPosition hvisible, ← nameAt_byPosition hvisible', ← nameAt_map, h, nameAt_map]
  apply List.ext_getElem?
  intro position
  have hposition := hmap position
  cases hname : names[position]? with
  | none =>
      rw [hname, Option.map_none, eq_comm, Option.map_eq_none_iff] at hposition
      exact hposition.symm
  | some name =>
      rw [hname, Option.map_some, eq_comm, Option.map_eq_some_iff] at hposition
      obtain ⟨name', hname', heq⟩ := hposition
      rw [hname', hf name (List.mem_of_getElem? hname) name' (List.mem_of_getElem? hname') heq.symm]

/-! ### Listings of definition files -/

variable {t t' : Text} {lines lines' : List Line}

/-- The names on the lines of a definition file have no line feeds in them. -/
theorem newline_not_mem_line_name {names : List Text} (hnames : Definitions.names t = .ok names)
    (h : lines.map Line.numbered = byPosition names) :
    ∀ line ∈ lines, '\n' ∉ line.name := by
  intro line hline
  obtain ⟨-, hself | hplain⟩ := mem_byPosition_iff.1 ((exists_line_iff h).1 ⟨line, hline, rfl, rfl⟩)
  · exact (Definitions.isCanonical_of_mem_names hnames (List.mem_of_getElem? hself)).newline_not_mem
  · have hname := Definitions.isCanonical_of_mem_names hnames (List.mem_of_getElem? hplain)
    exact fun hnewline => hname.newline_not_mem (List.mem_append_left _ hnewline)

/-- The columns of a listing as text are those of its lines. -/
theorem map_readColumns_lines_render {names : List Text}
    (hnames : Definitions.names t = .ok names)
    (h : lines.map Line.numbered = byPosition names) :
    (Text.lines (render .text lines)).map readColumns =
      (byPosition names).map (Prod.map (Text.padRight nameWidth) id) := by
  rw [lines_render_text (newline_not_mem_line_name hnames h), ← h, List.map_map, List.map_map]
  exact List.map_congr_left fun line _ => readColumns_textLine line

/-- A name of a definition file does not end in a space. -/
theorem getLast?_name_ne_space {names : List Text} (hnames : Definitions.names t = .ok names)
    {name : Text} (hname : name ∈ names) : name.getLast? ≠ some ' ' := by
  intro hspace
  have hcanonical := Definitions.isCanonical_of_mem_names hnames hname
  have hblank := hcanonical.last_not_blank ' ' hspace
  exact absurd hblank (by decide)

/-- **A listing determines the instructions.**  If two definition files are listed with the same
bytes and no instruction is left out, they have the same names in the same order. -/
theorem names_eq_of_taken_eq (format : Format) (h : ofDefinitions t = .ok lines)
    (h' : ofDefinitions t' = .ok lines')
    (hvisible : ∀ names, Definitions.names t = .ok names →
      ∀ name ∈ names, name.head? ≠ some '<')
    (hvisible' : ∀ names, Definitions.names t' = .ok names →
      ∀ name ∈ names, name.head? ≠ some '<')
    (htaken : (write .unlimited format lines).taken = (write .unlimited format lines').taken) :
    Definitions.names t = Definitions.names t' := by
  obtain ⟨names, hnames, hlines⟩ := exists_names_of_ofDefinitions h
  obtain ⟨names', hnames', hlines'⟩ := exists_names_of_ofDefinitions h'
  have hrender : render format lines = render format lines' := by
    rw [(write_unlimited format lines).1, (write_unlimited format lines').1] at htaken
    exact Utf8.encode_injective htaken
  have heq : names = names' := by
    cases format with
    | text =>
        have hcolumns := map_readColumns_lines_render hnames hlines
        rw [hrender, map_readColumns_lines_render hnames' hlines'] at hcolumns
        refine eq_of_map_byPosition (hvisible names hnames) (hvisible' names' hnames') ?_
          hcolumns.symm
        intro name hname name' hname'
        exact (Text.padRight_inj (getLast?_name_ne_space hnames hname)
          (getLast?_name_ne_space hnames' hname')).1
    | json =>
        refine eq_of_map_byPosition (f := id) (hvisible names hnames) (hvisible' names' hnames')
          (fun _ _ _ _ hid => hid) ?_
        rw [← hlines, ← hlines', render_json_injective hrender]
  rw [hnames, hnames', heq]

/-- Two files that are laid out in different ways, with a plain name that ends in a space. -/
theorem names_eq_of_taken_eq_layouts :
    ∃ lines lines' : List Line,
      ofDefinitions "DEFINE_INSN\nslice +0\n".toList = .ok lines ∧
      ofDefinitions "/**/\nDEFINE_INSN\r\n Slice +0\r\n".toList = .ok lines' ∧
      Definitions.names "DEFINE_INSN\nslice +0\n".toList =
        Definitions.names "/**/\nDEFINE_INSN\r\n Slice +0\r\n".toList := by
  have hnames : Definitions.names "DEFINE_INSN\nslice +0\n".toList = .ok ["SLICE +0".toList] := by
    decide +kernel
  have hnames' : Definitions.names "/**/\nDEFINE_INSN\r\n Slice +0\r\n".toList =
      .ok ["SLICE +0".toList] := by decide +kernel
  obtain ⟨lines, hlines, -⟩ := exists_lines_of_names hnames (by decide)
  have hlines' : ofDefinitions "/**/\nDEFINE_INSN\r\n Slice +0\r\n".toList = .ok lines := by
    rw [← hlines, ofDefinitions, ofDefinitions, hnames, hnames']
  refine ⟨lines, lines, hlines, hlines', names_eq_of_taken_eq .text hlines hlines' ?_ ?_ rfl⟩
  · intro names h
    obtain rfl := Except.ok.inj (hnames.symm.trans h)
    decide
  · intro names h
    obtain rfl := Except.ok.inj (hnames'.symm.trans h)
    decide

end Listing

end OpcodeCatalog
