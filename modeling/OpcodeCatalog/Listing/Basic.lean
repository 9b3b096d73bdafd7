import OpcodeCatalog.OpcodeTable

/-!
# Listings

A listing has a line for every code of a table that stands for an instruction, in the order of the
codes.  A name that ends in `+0` is the plain form of its instruction, so it is listed without the
ending as well.

Main definitions:

* `Listing.Line` — a name with its code;
* `Listing.ofEntry` — the lines of one code, none for a placeholder;
* `Listing.ofTable` — the lines of a table.
-/

set_option autoImplicit false

namespace OpcodeCatalog

namespace Listing

/-- A line of a listing. -/
structure Line where
  name : Text
  code : Code
  deriving DecidableEq

/-- The first character of a placeholder.  A name that begins with it is not listed. -/
def placeholderMark : Char := '<'

/-- The ending of the plain form of an instruction. -/
def plainEnding : Text := "+0".toList

/-- Whether a name is left out of listings. -/
def isHidden (name : Text) : Bool := name.head? == some placeholderMark

/-- The lines of a code: none for a hidden name, the name without its ending and then the whole name
for a plain form, and the name alone otherwise. -/
def ofEntry (code : Code) (name : Text) : List Line :=
  if isHidden name then []
  else
    match Text.stripSuffix? plainEnding name with
    | some stem => [⟨stem, code⟩, ⟨name, code⟩]
    | none => [⟨name, code⟩]

/-- The lines of all codes. -/
def ofTable (table : OpcodeTable) : List Line :=
  table.entries.flatMap fun entry => ofEntry entry.1 entry.2

/-! ### The lines of one code -/

/-- Every line of a code bears that code. -/
theorem code_of_mem_ofEntry {code : Code} {name : Text} {line : Line}
    (h : line ∈ ofEntry code name) : line.code = code := by
  unfold ofEntry at h
  split at h
  · simp at h
  · split at h <;> simp at h
    · rcases h with rfl | rfl <;> rfl
    · rw [h]

/-- A placeholder is never listed. -/
@[simp] theorem ofEntry_placeholder (code c : Code) : ofEntry code (placeholder c) = [] := rfl

end Listing

end OpcodeCatalog
