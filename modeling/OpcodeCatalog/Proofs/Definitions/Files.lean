import OpcodeCatalog.CommandLine.Outcome
import OpcodeCatalog.Proofs.Text.Malformed

/-!
# Definitions read from files

The content of a definition file is taken as a whole: it is a text and defines the names of that
text, or it is none and is refused before any line of it counts.  So something malformed anywhere in
a file comes before all faults of its definitions, also of those that stand in front of it.

Main definitions:

* `FileSystem.HoldsFile` — a path that leads to a regular file;
* `Path.IsName` — a path that is the name of an entry of the working directory.

Main results:

* `FileSystem.read_eq_ok_iff` — exactly these paths are read;
* `FileSystem.holdsFile_makeFile` — a file that was made is found under its name;
* `Definitions.read_file_exactly` — **a file defines the names of its text, or it is no text**.
-/

set_option autoImplicit false

namespace OpcodeCatalog

namespace FileSystem

/-! ### Files under their paths -/

/-- The path leads to a regular file with this content. -/
structure HoldsFile (fs : FileSystem) (path content : Bytes) : Prop where
  /-- A path with this byte leads nowhere. -/
  zero_not_mem : 0 ∉ path
  /-- The file stands at the place of the path. -/
  exists_place : ∃ place, fs.resolve path = .ok place ∧ fs.node? place = some (.file content)

/-- Exactly the files under a path are read. -/
theorem read_eq_ok_iff {fs : FileSystem} {path content : Bytes} :
    fs.read path = .ok content ↔ fs.HoldsFile path content := by
  constructor
  · intro h
    unfold read at h
    split at h
    · cases h
    · rename_i hzero
      refine ⟨hzero, ?_⟩
      cases hplace : fs.resolve path with
      | error e => simp [hplace] at h
      | ok place =>
          refine ⟨place, rfl, ?_⟩
          simp only [hplace] at h
          split at h
          · rename_i hnode
            rw [hnode, Except.ok.inj h]
          · cases h
  · rintro ⟨hzero, place, hplace, hnode⟩
    simp only [read, if_neg hzero, hplace, hnode]

end FileSystem

/-- A path that is the name of an entry of the working directory. -/
structure Path.IsName (name : Bytes) : Prop where
  ne_nil : name ≠ []
  separator_not_mem : Path.separator ∉ name
  zero_not_mem : 0 ∉ name
  length_le : name.length ≤ Path.maxNameLength
  ne_here : name ≠ Path.here
  ne_above : name ≠ Path.above

namespace Path

variable {name : Bytes}

theorem split_of_separator_not_mem (h : separator ∉ name) : split name = [name] := by
  induction name with
  | nil => rfl
  | cons b name ih =>
      have hb : b ≠ separator := fun hb => h (by simp [hb])
      have hname : separator ∉ name := fun hmem => h (List.mem_cons_of_mem _ hmem)
      rw [split, List.foldr_cons]
      rw [split] at ih
      rw [ih hname, consByte, if_neg hb]

theorem IsName.names_eq (h : IsName name) : names name = [name] := by
  have hlast : name.getLast? ≠ some separator := fun hlast =>
    h.separator_not_mem (List.mem_of_getLast? hlast)
  have hsplit := split_of_separator_not_mem h.separator_not_mem
  simp only [names, hsplit, if_neg hlast]
  exact List.filter_eq_self.2 fun _ hmem => by
    rw [List.mem_singleton.1 hmem]
    exact decide_eq_true h.ne_nil

theorem IsName.origin_eq (h : IsName name) (fs : FileSystem) : fs.origin name = fs.working := by
  refine if_neg fun hhead => ?_
  exact h.separator_not_mem (List.mem_of_mem_head? hhead)

theorem IsName.move_eq (h : IsName name) (place : Location) :
    FileSystem.move place name = place ++ [name] := by
  rw [FileSystem.move, if_neg h.ne_here, if_neg h.ne_above]

end Path

namespace FileSystem

variable {fs : FileSystem} {name : Bytes}

theorem makeFile_eq (h : Path.IsName name) (content : Bytes) :
    fs.makeFile name content =
      { fs with entries := (fs.working ++ [name], .file content) :: fs.entries } := by
  rw [makeFile, make, h.names_eq, h.origin_eq]
  simp only [List.foldl_cons, List.foldl_nil, h.move_eq]

/-- A file that was made in the working directory is found under its name. -/
theorem holdsFile_makeFile (h : Path.IsName name)
    (hworking : fs.node? fs.working = some .directory) (content : Bytes) :
    (fs.makeFile name content).HoldsFile name content := by
  have hnode : (fs.makeFile name content).node? (fs.working ++ [name]) = some (.file content) := by
    rw [makeFile_eq h, node?]
    simp
  have hdirectory : (fs.makeFile name content).node? fs.working = some .directory := by
    have hne : (fs.working == fs.working ++ [name]) = false := by simp
    rw [makeFile_eq h, node?, List.lookup_cons, hne]
    unfold node? at hworking
    cases hlookup : fs.entries.lookup fs.working with
    | some node =>
        rw [hlookup] at hworking
        exact hworking
    | none => simp
  refine ⟨h.zero_not_mem, fs.working ++ [name], ?_, hnode⟩
  have hlength : name.length ≤ Path.maxLength := Nat.le_trans h.length_le (by decide)
  have horigin : (fs.makeFile name content).origin name = fs.working := by
    rw [h.origin_eq, makeFile_eq h]
  rw [resolve, if_neg h.ne_nil, if_neg (Nat.not_lt.2 hlength), horigin, h.names_eq, walk,
    if_neg (by simp [hdirectory]), if_neg (by simp [h.ne_here, h.ne_above]),
    if_neg (Nat.not_lt.2 h.length_le), h.move_eq, if_neg (by simp [hnode]), walk]

end FileSystem

namespace Definitions

open CommandLine (readIn)

/-! ### Definitions of files -/

theorem readIn_of_holdsFile {fs : FileSystem} {path content : Bytes}
    (h : fs.HoldsFile path content) : readIn fs path = .ok content := by
  rw [readIn, FileSystem.read_eq_ok_iff.2 h]

/-- Bytes that are no text are refused. -/
theorem read_of_forall_ne_encode {path bytes : Bytes} (h : ∀ t, bytes ≠ Utf8.encode t) :
    read path (.ok bytes) = .error (.unreadableFile path notUtf8) := by
  have hdecode : Utf8.decode bytes = none := by
    refine Option.eq_none_iff_forall_ne_some.2 fun t ht => ?_
    exact h t (Utf8.decode_eq_some_iff.1 ht)
  simp only [read, textOf, hdecode]

/-- **A file defines the names of its text, or it is no text.**  It is no text exactly if something
malformed stands behind the bytes of some text, and then it is refused, whatever that text defines
and whatever comes behind. -/
theorem read_file_exactly {fs : FileSystem} {path content : Bytes}
    (h : fs.HoldsFile path content) :
    (∀ t, content = Utf8.encode t → read path (readIn fs path) = names t) ∧
      ((∀ t, content ≠ Utf8.encode t) → read path (readIn fs path) =
        .error (.unreadableFile path "stream did not contain valid UTF-8".toList)) ∧
      ((∀ t, content ≠ Utf8.encode t) ↔ ∃ t bad rest,
        content = Utf8.encode t ++ (bad ++ rest) ∧ Utf8.Malformed bad rest) ∧
      ∀ t bad rest, content = Utf8.encode t ++ (bad ++ rest) → Utf8.Malformed bad rest →
        read path (readIn fs path) =
          .error (.unreadableFile path "stream did not contain valid UTF-8".toList) := by
  rw [readIn_of_holdsFile h]
  refine ⟨?_, read_of_forall_ne_encode, Utf8.forall_ne_encode_iff, ?_⟩
  · rintro t rfl
    exact read_ok_of_decode (Utf8.decode_encode t)
  · intro t bad rest hcontent hbad
    exact read_of_forall_ne_encode (Utf8.forall_ne_encode_iff.2 ⟨t, bad, rest, hcontent, hbad⟩)

/-- A header without a name, and a surrogate behind it. -/
theorem read_file_exactly_surrogate :
    (FileSystem.empty.makeFile (Utf8.ofString "insns.def")
        (Utf8.ofString "DEFINE_INSN\n\n" ++ ([0xED, 0xA0, 0x80] ++ [0x0A]))).HoldsFile
          (Utf8.ofString "insns.def")
          (Utf8.ofString "DEFINE_INSN\n\n" ++ ([0xED, 0xA0, 0x80] ++ [0x0A])) ∧
      Utf8.Malformed [0xED, 0xA0, 0x80] [0x0A] ∧
      names "DEFINE_INSN\n\n".toList = .error (.missingName 1) ∧
      read (Utf8.ofString "insns.def")
          (readIn (FileSystem.empty.makeFile (Utf8.ofString "insns.def")
            (Utf8.ofString "DEFINE_INSN\n\n" ++ ([0xED, 0xA0, 0x80] ++ [0x0A])))
              (Utf8.ofString "insns.def")) =
        .error (.unreadableFile (Utf8.ofString "insns.def")
          "stream did not contain valid UTF-8".toList) := by
  have hname : Path.IsName (Utf8.ofString "insns.def") :=
    ⟨by decide, by decide, by decide, by decide, by decide, by decide⟩
  have hfile := @FileSystem.holdsFile_makeFile FileSystem.empty _ hname (by decide)
    (Utf8.ofString "DEFINE_INSN\n\n" ++ ([0xED, 0xA0, 0x80] ++ [0x0A]))
  have hlead : Utf8.Announces (0xED : UInt8).toNat 13 2 := @Utf8.Announces.two 13 (by decide)
  have htail : ∀ c ∈ ([0xA0, 0x80] : Bytes), Utf8.IsContinuation c := by
    simp [Utf8.IsContinuation]
  have hform : Utf8.HasForm 2 0xD800 [0xED, 0xA0, 0x80] :=
    @Utf8.HasForm.intro 0xED 13 2 [0xA0, 0x80] hlead rfl htail
  have hbad : Utf8.Malformed [0xED, 0xA0, 0x80] [0x0A] :=
    .surrogate hform (by decide) (by decide)
  exact ⟨hfile, hbad, rfl, (read_file_exactly hfile).2.2.2 _ _ _ rfl hbad⟩

end Definitions

end OpcodeCatalog
