import OpcodeCatalog.Proofs.CommandLine.Arguments

/-!
# Settings at one place

The settings before the command, and those behind it, are read for themselves.  At one place a
setting is given once at most, and a format has to be one that exists; nothing else can be wrong
with settings that carry their values.  What a place has after they were given is what it had and
what they give.

Main definitions:

* `CommandLine.formatNamed?` — the format that a word names exactly;
* `CommandLine.givenFormat` — the format that is given among settings;
* `CommandLine.Level.Admits`, `CommandLine.Level.Gains` — settings that can be given at a place, and
  what the place has afterwards.

Main results:

* `CommandLine.exists_foldlM_give_iff` — **settings can be given exactly if the place admits them**;
* `CommandLine.State.Ready.foldlM_attached` — **settings are given one by one at the place of the
  reading**.
-/

set_option autoImplicit false

namespace OpcodeCatalog

namespace CommandLine

/-! ### The format that a word names -/

/-- The format that a word names exactly. -/
def formatNamed? (word : Bytes) : Option Format :=
  if word = Utf8.ofString "text" then some .text
  else if word = Utf8.ofString "json" then some .json
  else none

/-- The word is the name of the format. -/
theorem formatNamed?_eq_some_iff {word : Bytes} {format : Format} :
    formatNamed? word = some format ↔ word = Utf8.encode format.word := by
  unfold formatNamed?
  split
  · rename_i htext
    subst htext
    cases format <;> decide
  · rename_i htext
    split
    · rename_i hjson
      subst hjson
      cases format <;> decide
    · rename_i hjson
      cases format with
      | text => exact ⟨fun h => by simp at h, fun h => absurd h htext⟩
      | json => exact ⟨fun h => by simp at h, fun h => absurd h hjson⟩

theorem ofWord_eq_ok_iff {word : Text} {format : Format} :
    Format.ofWord false word = .ok format ↔ word = format.word := by
  constructor
  · intro h
    unfold Format.ofWord at h
    split at h
    · rename_i found hfind
      have hword := List.find?_some hfind
      rw [← Except.ok.inj h]
      exact (eq_of_beq hword).symm
    · simp at h
  · rintro rfl
    exact Format.ofWord_word false format

/-- The value of a format is read as the word that it is. -/
theorem decode_map_ofWord_iff {value : Bytes} {format : Format} :
    (Utf8.decode value).map (Format.ofWord false) = some (.ok format) ↔
      formatNamed? value = some format := by
  rw [formatNamed?_eq_some_iff, Option.map_eq_some_iff]
  constructor
  · rintro ⟨word, hdecode, hformat⟩
    rw [Utf8.decode_eq_some_iff.1 hdecode, ofWord_eq_ok_iff.1 hformat]
  · rintro rfl
    exact ⟨format.word, Utf8.decode_encode _, ofWord_eq_ok_iff.2 rfl⟩

/-! ### Settings at one place -/

/-- The format that is given. -/
def Attached.format? (a : Attached) : Option Format :=
  match a.setting with
  | .format => formatNamed? (Utf8.encode a.value)
  | .logLevel => none

/-- The format that is given among settings. -/
def givenFormat (settings : List Attached) : Option Format := settings.findSome? Attached.format?

/-- If a format is given, it is one that exists. -/
def Attached.Known (a : Attached) : Prop := a.setting = .format → a.format? ≠ none

namespace Level

/-- The setting was given. -/
def Has (level : Level) : Setting → Prop
  | .format => level.format ≠ none
  | .logLevel => level.logFilter ≠ none

/-- Settings that can be given one after the other. -/
structure Admits (level : Level) (settings : List Attached) : Prop where
  nodup : (settings.map Attached.setting).Nodup
  known : ∀ a ∈ settings, a.Known
  not_has : ∀ a ∈ settings, ¬ level.Has a.setting

/-- What a place has after settings were given. -/
structure Gains (level : Level) (settings : List Attached) (next : Level) : Prop where
  format_eq : next.format = level.format.or (givenFormat settings)
  waiting_eq : next.waiting = level.waiting
  has_iff : ∀ setting,
    next.Has setting ↔ level.Has setting ∨ setting ∈ settings.map Attached.setting

end Level

section Level

variable {level next last : Level} {a : Attached} {settings : List Attached}

theorem Level.Gains.refl (level : Level) : level.Gains [] level :=
  ⟨by simp [givenFormat], rfl, by simp⟩

theorem Level.Gains.cons (h : level.Gains [a] next) (h' : next.Gains settings last) :
    level.Gains (a :: settings) last := by
  refine ⟨?_, h'.waiting_eq.trans h.waiting_eq, ?_⟩
  · have hgiven : givenFormat (a :: settings) = (givenFormat [a]).or (givenFormat settings) := by
      rw [givenFormat, ← List.singleton_append, List.findSome?_append]
      rfl
    rw [h'.format_eq, h.format_eq, hgiven, Option.or_assoc]
  · intro setting
    rw [h'.has_iff, h.has_iff]
    simp [or_assoc]

/-- A format is given by the word that names it. -/
theorem set_format (level : Level) (value : Bytes) : level.set .format value =
    if level.format.isSome then .error (.repeatedSetting .format)
    else
      match formatNamed? value with
      | some format => .ok { level with format := some format }
      | none => .error (.invalidValue .format value) := by
  simp only [Level.set]
  split
  · rfl
  · cases hformat : formatNamed? value with
    | some format => rw [decode_map_ofWord_iff.2 hformat]
    | none =>
        split
        · rename_i format hdecode
          rw [decode_map_ofWord_iff, hformat] at hdecode
          simp at hdecode
        · rfl

/-- A setting is given if it is new to the place, and if a format is one that exists. -/
theorem exists_give_iff :
    (∃ next, level.give a = .ok next) ↔ ¬ level.Has a.setting ∧ a.Known := by
  obtain ⟨setting, value⟩ := a
  cases setting with
  | format =>
      rw [Level.give, set_format]
      cases hlevel : level.format with
      | some format => simp [Level.Has, hlevel]
      | none =>
          cases hformat : formatNamed? (Utf8.encode value) with
          | some format => simp [Level.Has, Attached.Known, Attached.format?, hlevel, hformat]
          | none => simp [Level.Has, Attached.Known, Attached.format?, hlevel, hformat]
  | logLevel =>
      simp only [Level.give, Level.set, Utf8.decode_encode]
      cases hlevel : level.logFilter with
      | some filter => simp [Level.Has, hlevel]
      | none => simp [Level.Has, Attached.Known, hlevel]

/-- What one setting does to a place. -/
theorem gains_of_give (h : level.give a = .ok next) : level.Gains [a] next := by
  obtain ⟨setting, value⟩ := a
  cases setting with
  | format =>
      rw [Level.give, set_format] at h
      split at h
      · simp at h
      · rename_i hlevel
        simp only [Option.not_isSome_iff_eq_none] at hlevel
        split at h
        · rename_i format hformat
          rw [← Except.ok.inj h]
          refine ⟨by simp [hlevel, givenFormat, Attached.format?, hformat], rfl, ?_⟩
          intro setting
          cases setting <;> simp [Level.Has]
        · simp at h
  | logLevel =>
      simp only [Level.give, Level.set, Utf8.decode_encode] at h
      split at h
      · simp at h
      · rw [← Except.ok.inj h]
        refine ⟨by simp [givenFormat, Attached.format?], rfl, ?_⟩
        intro setting
        cases setting <;> simp [Level.Has]

/-- What any settings do to a place. -/
theorem gains_of_foldlM (h : settings.foldlM Level.give level = .ok next) :
    level.Gains settings next := by
  induction settings generalizing level with
  | nil =>
      rw [← Except.ok.inj h]
      exact .refl level
  | cons a settings ih =>
      rw [List.foldlM_cons] at h
      cases hgive : level.give a with
      | error e =>
          rw [hgive] at h
          cases h
      | ok first =>
          rw [hgive] at h
          exact (gains_of_give hgive).cons (ih h)

/-- A place admits settings if the first one is new and known, and what it has then admits the
others. -/
theorem admits_cons_iff (h : level.Gains [a] next) : level.Admits (a :: settings) ↔
    (¬ level.Has a.setting ∧ a.Known) ∧ next.Admits settings := by
  have hnot : ∀ b ∈ settings, ¬ next.Has b.setting ↔
      ¬ level.Has b.setting ∧ b.setting ≠ a.setting := by
    intro b _
    simp [h.has_iff]
  constructor
  · rintro ⟨hnodup, hknown, hhas⟩
    rw [List.map_cons, List.nodup_cons] at hnodup
    rw [List.forall_mem_cons] at hknown hhas
    refine ⟨⟨hhas.1, hknown.1⟩, hnodup.2, hknown.2, ?_⟩
    intro b hb
    refine (hnot b hb).2 ⟨hhas.2 b hb, ?_⟩
    intro hsame
    exact hnodup.1 (hsame ▸ List.mem_map_of_mem hb)
  · rintro ⟨⟨hhas, hknown⟩, hadmits⟩
    refine ⟨?_, List.forall_mem_cons.2 ⟨hknown, hadmits.known⟩, List.forall_mem_cons.2 ⟨hhas, ?_⟩⟩
    · rw [List.map_cons, List.nodup_cons]
      refine ⟨?_, hadmits.nodup⟩
      intro hmem
      obtain ⟨b, hb, hsame⟩ := List.mem_map.1 hmem
      exact ((hnot b hb).1 (hadmits.not_has b hb)).2 hsame
    · intro b hb
      exact ((hnot b hb).1 (hadmits.not_has b hb)).1

/-- **Settings can be given exactly if the place admits them.** -/
theorem exists_foldlM_give_iff :
    (∃ next, settings.foldlM Level.give level = .ok next) ↔ level.Admits settings := by
  induction settings generalizing level with
  | nil => exact ⟨fun _ => ⟨by simp, by simp, by simp⟩, fun _ => ⟨level, rfl⟩⟩
  | cons a settings ih =>
      rw [List.foldlM_cons]
      cases hgive : level.give a with
      | error e =>
          constructor
          · rintro ⟨next, h⟩
            cases h
          · intro h
            have hfirst : ∃ next, level.give a = .ok next :=
              exists_give_iff.2 ⟨h.not_has a List.mem_cons_self, h.known a List.mem_cons_self⟩
            rw [hgive] at hfirst
            simp at hfirst
      | ok first =>
          rw [admits_cons_iff (gains_of_give hgive)]
          have hfirst := exists_give_iff.1 ⟨first, hgive⟩
          constructor
          · intro h
            exact ⟨hfirst, ih.1 h⟩
          · intro h
            exact ih.2 h.2

/-- A place without settings admits them if none is given twice and all formats exist. -/
theorem unset_admits_iff : Level.unset.Admits settings ↔
    (settings.map Attached.setting).Nodup ∧ ∀ a ∈ settings, a.Known := by
  constructor
  · intro h
    exact ⟨h.nodup, h.known⟩
  · rintro ⟨hnodup, hknown⟩
    refine ⟨hnodup, hknown, ?_⟩
    intro a _
    cases a.setting <;> simp [Level.unset, Level.Has]

instance (a : Attached) : Decidable a.Known :=
  inferInstanceAs (Decidable (a.setting = .format → a.format? ≠ none))

instance (settings : List Attached) : Decidable (Level.unset.Admits settings) :=
  decidable_of_iff _ unset_admits_iff.symm

end Level

/-! ### Reading settings -/

section Reading

variable {s : State}

/-- The next argument may be an option, and no value waits. -/
structure State.Ready (s : State) : Prop where
  place_ne : ∀ topic, s.place ≠ .help topic
  mode_eq : s.mode = .anything
  waiting_eq : s.level.waiting = none

@[simp] theorem withLevel_place (s : State) (level : Level) :
    (s.withLevel level).place = s.place := by
  unfold State.withLevel
  split <;> rfl

@[simp] theorem level_withLevel (s : State) (level : Level) :
    (s.withLevel level).level = level := by
  unfold State.level State.withLevel State.beforeCommand
  split <;> simp_all

@[simp] theorem withLevel_withLevel (s : State) (level level' : Level) :
    (s.withLevel level).withLevel level' = s.withLevel level' := by
  unfold State.withLevel State.beforeCommand
  split <;> simp_all

@[simp] theorem withLevel_level (s : State) : s.withLevel s.level = s := by
  unfold State.withLevel State.level
  split <;> rfl

theorem State.Ready.withLevel (h : s.Ready) {level : Level} (hlevel : level.waiting = none) :
    (s.withLevel level).Ready := by
  refine ⟨?_, ?_, ?_⟩
  · rw [withLevel_place]
    exact h.place_ne
  · rw [withLevel_mode]
    exact h.mode_eq
  · rw [level_withLevel]
    exact hlevel

/-- Where an option may stand, the argument is read as one. -/
theorem State.Ready.step_eq (h : s.Ready) (arg : Bytes) : s.step arg = s.takeArgument arg := by
  unfold State.step
  rw [h.mode_eq]
  cases hplace : s.place with
  | help topic => exact absurd hplace (h.place_ne topic)
  | program => rfl
  | python => rfl
  | yarv path => rfl

/-- No value waits, so the settings are as they were. -/
theorem State.Ready.settled_eq (h : s.Ready) (go : Level → Except Answer State) :
    s.settled go = go s.level := by
  rw [State.settled, Level.settle, h.waiting_eq]

/-- A setting is given at the place of the reading. -/
theorem State.Ready.step_attached (h : s.Ready) (a : Attached) : s.step a.argument =
    match s.level.give a with
    | .error e => .error (.error e)
    | .ok level => .ok (s.withLevel level) := by
  rw [h.step_eq]
  exact (takeArgument_attached s a).trans (h.settled_eq _)

/-- **Settings are given one by one at the place of the reading.** -/
theorem State.Ready.foldlM_attached (h : s.Ready) (settings : List Attached) :
    (settings.map Attached.argument).foldlM State.step s =
      match settings.foldlM Level.give s.level with
      | .error e => .error (.error e)
      | .ok level => .ok (s.withLevel level) := by
  induction settings generalizing s with
  | nil =>
      simp only [List.map_nil, List.foldlM_nil]
      exact congrArg Except.ok (withLevel_level s).symm
  | cons a settings ih =>
      rw [List.map_cons, List.foldlM_cons, List.foldlM_cons, h.step_attached]
      cases hgive : s.level.give a with
      | error e => rfl
      | ok level =>
          have hwaiting : level.waiting = none :=
            (gains_of_give hgive).waiting_eq.trans h.waiting_eq
          have hrest := ih (h.withLevel hwaiting)
          rw [level_withLevel] at hrest
          simp only [withLevel_withLevel] at hrest
          exact hrest

end Reading

end CommandLine

end OpcodeCatalog
