import OpcodeCatalog.Proofs.Definitions.Headers

/-!
# Line endings do not matter

Carriage returns in front of a line feed or at the end of a definition file belong to the line
ending, however many there are, and line feeds at the end make lines that are empty.  Empty lines at
the end define nothing: they are no headers, and a header in front of them lacks its name with and
without them.  So a file says the same with any of these added, whether it is accepted or not.

Main definitions:

* `Definitions.EndingsAdded` — a text with more carriage returns and line feeds at line ends.

Main results:

* `Definitions.exists_logicalLines_eq` — **the lines are as before**, with empty ones behind them;
* `Definitions.scan_append_replicate_nil` — empty lines at the end define nothing;
* `Definitions.names_eq_of_endingsAdded` — **line endings do not matter**.
-/

set_option autoImplicit false

namespace OpcodeCatalog

namespace Text

/-! ### Carriage returns at the end of a line -/

@[simp] theorem dropReturns_append_replicate (l : Text) (n : Nat) :
    dropReturns (l ++ List.replicate n '\r') = dropReturns l := by
  induction n with
  | zero => rw [List.replicate_zero, List.append_nil]
  | succ n ih =>
      rw [List.replicate_succ', ← List.append_assoc, dropReturns_eq_rdropWhile,
        List.rdropWhile_concat_pos (· == '\r') _ _ rfl, ← dropReturns_eq_rdropWhile, ih]

@[simp] theorem dropReturns_replicate (n : Nat) : dropReturns (List.replicate n '\r') = [] :=
  dropReturns_append_replicate [] n

/-- A line is what is left of it and the carriage returns at its end. -/
theorem exists_eq_append_replicate (l : Text) :
    ∃ n, l = dropReturns l ++ List.replicate n '\r' := by
  refine ⟨(l.rtakeWhile (· == '\r')).length, ?_⟩
  have hreturns : ∀ c ∈ l.rtakeWhile (· == '\r'), c = '\r' :=
    fun c hc => beq_iff_eq.1 (List.mem_rtakeWhile_imp (p := (· == '\r')) hc)
  rw [← List.eq_replicate_of_mem hreturns, dropReturns_eq_rdropWhile,
    List.rdropWhile_append_rtakeWhile]

/-- With one more character in front, it makes no difference whether the carriage returns at the end
of a line are there. -/
theorem dropReturns_cons_dropReturns (c : Char) (l : Text) :
    dropReturns (c :: dropReturns l) = dropReturns (c :: l) := by
  obtain ⟨n, hn⟩ := exists_eq_append_replicate l
  conv_rhs => rw [hn, ← List.cons_append, dropReturns_append_replicate]

end Text

namespace Definitions

/-! ### More carriage returns and line feeds -/

/-- The second text is the first one with any number of carriage returns before each line feed and
at the end, and any number of line feeds behind all that. -/
inductive EndingsAdded : Text → Text → Prop
  | finish (returns feeds : Nat) :
      EndingsAdded [] (List.replicate returns '\r' ++ List.replicate feeds '\n')
  | newline (returns : Nat) {t t' : Text} :
      EndingsAdded t t' → EndingsAdded ('\n' :: t) (List.replicate returns '\r' ++ '\n' :: t')
  | character {c : Char} {t t' : Text} :
      c ≠ '\n' → EndingsAdded t t' → EndingsAdded (c :: t) (c :: t')

/-- The characters of a line stay. -/
theorem EndingsAdded.append {t t' : Text} (h : EndingsAdded t t') {l : Text} (hl : '\n' ∉ l) :
    EndingsAdded (l ++ t) (l ++ t') := by
  induction l with
  | nil => exact h
  | cons c l ih =>
      rw [List.mem_cons, not_or] at hl
      exact .character (Ne.symm hl.1) (ih hl.2)

/-! ### The lines -/

/-- Carriage returns alone make an empty line. -/
theorem logicalLines_replicate_append_newline (returns : Nat) (t : Text) :
    logicalLines (List.replicate returns '\r' ++ '\n' :: t) = [] :: logicalLines t := by
  have hnewline : '\n' ∉ List.replicate returns '\r' := by simp [List.mem_replicate]
  rw [logicalLines, Text.lines_append_newline hnewline, List.map_cons,
    Text.dropReturns_replicate, logicalLines]

/-- Any other character joins the first line. -/
theorem logicalLines_cons {c : Char} (hc : c ≠ '\n') (t : Text) :
    logicalLines (c :: t) =
      Text.dropReturns (c :: (logicalLines t).headD []) :: (logicalLines t).tail := by
  simp only [logicalLines, Text.lines_cons, Text.consLine, if_neg hc]
  cases Text.lines t with
  | nil => rfl
  | cons l ls => simp [Text.dropReturns_cons_dropReturns]

/-- Carriage returns and then line feeds make empty lines. -/
theorem exists_logicalLines_finish (returns feeds : Nat) :
    ∃ m, logicalLines (List.replicate returns '\r' ++ List.replicate feeds '\n') =
      List.replicate m [] := by
  induction returns with
  | zero =>
      refine ⟨feeds, ?_⟩
      rw [List.replicate_zero, List.nil_append]
      induction feeds with
      | zero => rfl
      | succ feeds ih =>
          rw [List.replicate_succ, List.replicate_succ, ← ih]
          exact logicalLines_replicate_append_newline 0 _
  | succ returns ih =>
      obtain ⟨m, hm⟩ := ih
      refine ⟨m - 1 + 1, ?_⟩
      rw [List.replicate_succ, List.cons_append, logicalLines_cons (by decide), hm]
      -- one more carriage return joins the first empty line, or makes one if there is none
      cases m <;> rfl

/-- The lines are as before, with empty ones behind them. -/
theorem exists_logicalLines_eq {t t' : Text} (h : EndingsAdded t t') :
    ∃ m, logicalLines t' = logicalLines t ++ List.replicate m [] := by
  induction h with
  | finish returns feeds => exact exists_logicalLines_finish returns feeds
  | @newline returns t t' _ ih =>
      obtain ⟨m, hm⟩ := ih
      refine ⟨m, ?_⟩
      have hline := logicalLines_replicate_append_newline 0 t
      rw [List.replicate_zero, List.nil_append] at hline
      rw [logicalLines_replicate_append_newline, hm, hline, List.cons_append]
  | @character c t t' hc _ ih =>
      obtain ⟨m, hm⟩ := ih
      rw [logicalLines_cons hc, logicalLines_cons hc, hm]
      cases hlines : logicalLines t with
      | nil =>
          -- the character begins the last line, and the first of the empty ones is that line
          refine ⟨m - 1, ?_⟩
          cases m <;> rfl
      | cons l ls => exact ⟨m, rfl⟩

/-! ### Empty lines at the end -/

theorem scan_replicate_nil (number m : Nat) : scan number (List.replicate m []) = [] := by
  induction m generalizing number with
  | zero => rfl
  | succ m ih => rw [List.replicate_succ, scan_cons_of_ne (by decide), ih]

/-- Empty lines at the end define nothing. -/
theorem scan_append_replicate_nil (number : Nat) (lines : List Text) (m : Nat) :
    scan number (lines ++ List.replicate m []) = scan number lines := by
  fun_induction scan number lines with
  | case1 number => exact scan_replicate_nil number m
  | case2 number =>
      -- the header lacks its name, whether the next line is missing or empty
      cases m with
      | zero => rfl
      | succ m =>
          rw [List.replicate_succ, List.singleton_append, scan, if_pos rfl, scan_replicate_nil]
          rfl
  | case3 number line hline =>
      rw [List.singleton_append, scan_cons_of_ne hline, scan_replicate_nil]
  | case4 number next rest ih =>
      rw [List.cons_append, List.cons_append, scan, if_pos rfl, ih]
  | case5 number line next rest hline ih =>
      rw [List.cons_append, scan_cons_of_ne hline, ih]

/-- **Line endings do not matter**, neither for the names nor for the failure. -/
theorem names_eq_of_endingsAdded {t t' : Text} (h : EndingsAdded t t') : names t' = names t := by
  obtain ⟨m, hm⟩ := exists_logicalLines_eq h
  rw [names, names, namesFrom_eq_collect, namesFrom_eq_collect, hm, scan_append_replicate_nil]

/-- Line endings of three kinds, and empty lines in the place of a name. -/
theorem names_mixed_endings :
    EndingsAdded "DEFINE_INSN\nnop\nDEFINE_INSN".toList
        "DEFINE_INSN\r\r\nnop\nDEFINE_INSN\r\n\n".toList ∧
      names "DEFINE_INSN\r\r\nnop\nDEFINE_INSN\r\n\n".toList = .error (.missingName 3) := by
  have hadded : EndingsAdded "DEFINE_INSN\nnop\nDEFINE_INSN".toList
      "DEFINE_INSN\r\r\nnop\nDEFINE_INSN\r\n\n".toList := by
    have hlast : EndingsAdded header (header ++ "\r\n\n".toList) :=
      (EndingsAdded.finish 1 2).append (l := header) (by decide)
    have hname := (hlast.newline 0).append (l := "nop".toList) (by decide)
    exact (hname.newline 2).append (l := header) (by decide)
  have hnames : names "DEFINE_INSN\nnop\nDEFINE_INSN".toList = .error (.missingName 3) := by
    decide +kernel
  exact ⟨hadded, (names_eq_of_endingsAdded hadded).trans hnames⟩

end Definitions

end OpcodeCatalog
