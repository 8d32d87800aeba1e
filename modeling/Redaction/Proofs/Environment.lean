import Redaction.Fault
import Redaction.Proofs.TrimmedText
import Redaction.Settings

/-!
# Settings from the environment

The values of two variables are read one after the other, and what they come to can be told from the
word and the path that stand in them. Blanks around a value and the case of a word count for
nothing. A change made afterwards goes before what was read.

* `FlagSays flag b` and `PathSays path p`: the answer for a variable says `b`, or `p`. `flagOf` and
  `pathOf` find these (`flagOf_eq_ok_iff`, `pathOf_eq_ok_iff`).
* `Reading flag path outcome` has one rule for each thing that two answers can come to. `combined`
  follows the rules (`combined_eq_iff`), and `ofLookup` combines the answers of a look-up.
* `combined_eq_ok_iff_of_respelled`: other spellings of two answers come to the same settings.
* `value_foldl_apply`: what a row of changes makes of each setting.
* `settings_read` is the main statement.
-/

namespace Redaction.Settings

/-! ### The flag -/

/-- The words for a flag. -/
def flagWords : Bool → List String
  | true => ["1", "true", "yes"]
  | false => ["0", "false", "no"]

/-- The answer for the flag says whether it is set. It is not if there is no answer. -/
inductive FlagSays : Option String → Bool → Prop
  | unset : FlagSays none false
  | word {value word : String} {b : Bool} (hmem : word ∈ flagWords b)
      (hspells : Text.Spells word value) : FlagSays (some value) b

/-- The flag under the answer for it. -/
def flagOf : Option String → Except SettingsError Bool
  | some value => readFlag .failFast value
  | none => .ok standard.failFast

section Flag

variable {value word : String} {b : Bool}

/-- The words for a flag have no blanks at their ends and no capitals. -/
theorem plain_of_mem_flagWords (h : word ∈ flagWords b) :
    Text.trim word = word ∧ Text.lowerAscii word = word := by
  have hall : ∀ b, ∀ word ∈ flagWords b,
      Text.trim word = word ∧ Text.lowerAscii word = word := by decide +kernel
  exact hall b word h

theorem flagOfWord?_eq_some_iff : flagOfWord? word = some b ↔ word ∈ flagWords b := by
  constructor
  · intro h
    unfold flagOfWord? at h
    split at h
    next hon =>
      cases h
      exact hon
    next =>
      split at h
      next hoff =>
        cases h
        exact hoff
      next => cases h
  · intro h
    have hall : ∀ b, ∀ word ∈ flagWords b, flagOfWord? word = some b := by decide
    exact hall b word h

theorem flagSays_some_iff :
    FlagSays (some value) b ↔ Text.lowerAscii (Text.trim value) ∈ flagWords b := by
  have hspells : ∀ word ∈ flagWords b,
      (Text.Spells word value ↔ Text.lowerAscii (Text.trim value) = word) := by
    intro word hmem
    obtain ⟨htrim, hlower⟩ := plain_of_mem_flagWords hmem
    rw [Text.spells_iff (htrim ▸ Text.bare_trim word), hlower]
  constructor
  · intro h
    cases h with
    | word hmem h => exact (hspells _ hmem).1 h ▸ hmem
  · intro hmem
    exact .word hmem ((hspells _ hmem).2 rfl)

theorem flagOf_of_blank (h : Text.Blank value) :
    flagOf (some value) = .error (.empty .failFast) := by
  rw [flagOf, readFlag, Text.trim_eq_empty_iff.2 h]
  rfl

/-- A value that is not blank is looked up among the words. -/
theorem flagOf_of_not_blank (h : ¬Text.Blank value) :
    flagOf (some value) = ((flagOfWord? (Text.lowerAscii (Text.trim value))).map Except.ok).getD
      (.error (.invalidFlag .failFast value)) := by
  have hne : Text.lowerAscii (Text.trim value) ≠ "" := by
    rwa [ne_eq, Text.lowerAscii_eq_empty_iff, Text.trim_eq_empty_iff]
  unfold flagOf readFlag
  dsimp only
  rw [if_neg hne]
  cases flagOfWord? (Text.lowerAscii (Text.trim value)) <;> rfl

/-- The flag that is found is the one that the answer says. -/
theorem flagOf_eq_ok_iff {flag : Option String} : flagOf flag = .ok b ↔ FlagSays flag b := by
  cases flag with
  | none =>
    constructor
    · rintro ⟨⟩
      exact .unset
    · rintro ⟨⟩
      rfl
  | some value =>
    rw [flagSays_some_iff, ← flagOfWord?_eq_some_iff]
    by_cases hblank : Text.Blank value
    · have hempty : Text.lowerAscii (Text.trim value) = "" := by
        rw [Text.lowerAscii_eq_empty_iff, Text.trim_eq_empty_iff.2 hblank]
      rw [flagOf_of_blank hblank, hempty]
      exact iff_of_false nofun nofun
    · rw [flagOf_of_not_blank hblank]
      cases flagOfWord? (Text.lowerAscii (Text.trim value)) <;> simp

theorem flagOf_of_unknown (hblank : ¬Text.Blank value) (h : ∀ b, ¬FlagSays (some value) b) :
    flagOf (some value) = .error (.invalidFlag .failFast value) := by
  have hnone : flagOfWord? (Text.lowerAscii (Text.trim value)) = none := by
    refine Option.eq_none_iff_forall_ne_some.2 fun b hb => ?_
    exact h b (flagSays_some_iff.2 (flagOfWord?_eq_some_iff.1 hb))
  rw [flagOf_of_not_blank hblank, hnone]
  rfl

/-- Another spelling of a value says the same. -/
theorem flagSays_iff_of_respelled {flag flag' : Option String}
    (h : Option.Rel Text.Spells flag flag') : FlagSays flag' b ↔ FlagSays flag b := by
  cases h with
  | none => exact Iff.rfl
  | some hspells =>
    rw [flagSays_some_iff, flagSays_some_iff, Text.lowerAscii_trim_eq_of_spells hspells]

end Flag

/-! ### The path -/

/-- The answer for the path says which it is. It is the standard one if there is no answer. -/
inductive PathSays : Option String → String → Prop
  | unset : PathSays none standard.runtimeImport
  | trimmed {value path : String} (hpadded : Text.Padded path value) (hbare : Text.Bare path)
      (hne : path ≠ "") : PathSays (some value) path

/-- The path under the answer for it. -/
def pathOf : Option String → Except SettingsError String
  | some value => readPath .runtimeImport value
  | none => .ok standard.runtimeImport

section Path

variable {path : Option String} {value p : String}

theorem pathOf_of_blank (h : Text.Blank value) :
    pathOf (some value) = .error (.empty .runtimeImport) := if_pos (Text.trim_eq_empty_iff.2 h)

theorem pathOf_of_not_blank (h : ¬Text.Blank value) : pathOf (some value) = .ok (Text.trim value) :=
  if_neg (mt Text.trim_eq_empty_iff.1 h)

theorem pathSays_some_iff :
    PathSays (some value) p ↔ Text.trim value = p ∧ ¬Text.Blank value := by
  rw [← Text.trim_eq_empty_iff]
  constructor
  · intro h
    cases h with
    | trimmed hpadded hbare hne =>
      have htrim : Text.trim value = p := Text.trim_eq_iff.2 ⟨hpadded, hbare⟩
      exact ⟨htrim, htrim.trans_ne hne⟩
  · rintro ⟨htrim, hne⟩
    obtain ⟨hpadded, hbare⟩ := Text.trim_eq_iff.1 htrim
    exact .trimmed hpadded hbare (htrim ▸ hne)

/-- The path that is found is the one that the answer says. -/
theorem pathOf_eq_ok_iff : pathOf path = .ok p ↔ PathSays path p := by
  cases path with
  | none =>
    constructor
    · rintro ⟨⟩
      exact .unset
    · rintro ⟨⟩
      rfl
  | some value =>
    rw [pathSays_some_iff]
    by_cases hblank : Text.Blank value
    · rw [pathOf_of_blank hblank]
      exact iff_of_false nofun fun h => h.2 hblank
    · rw [pathOf_of_not_blank hblank]
      simp [hblank]

theorem pathSays_iff_of_padded {path' : Option String} (h : Option.Rel Text.Padded path path') :
    PathSays path' p ↔ PathSays path p := by
  cases h with
  | none => exact Iff.rfl
  | some hpadded =>
    rw [pathSays_some_iff, pathSays_some_iff, ← Text.trim_eq_empty_iff, ← Text.trim_eq_empty_iff,
      Text.trim_of_padded hpadded]

end Path

/-! ### Both answers -/

/-- What the answers for the flag and for the path come to. Nothing else of the standard settings
changes. -/
inductive Reading : Option String → Option String → Except SettingsError Settings → Prop
  | blankFlag {value : String} {path : Option String} (h : Text.Blank value) :
      Reading (some value) path (.error (.empty .failFast))
  | unknownFlag {value : String} {path : Option String} (hblank : ¬Text.Blank value)
      (h : ∀ b, ¬FlagSays (some value) b) :
      Reading (some value) path (.error (.invalidFlag .failFast value))
  | blankPath {flag : Option String} {value : String} {b : Bool} (hflag : FlagSays flag b)
      (h : Text.Blank value) : Reading flag (some value) (.error (.empty .runtimeImport))
  | inOrder {flag path : Option String} {b : Bool} {p : String} (hflag : FlagSays flag b)
      (hpath : PathSays path p) :
      Reading flag path (.ok { standard with failFast := b, runtimeImport := p })

/-- The settings under both answers. -/
def combined (flag path : Option String) : Except SettingsError Settings :=
  flagOf flag >>= fun b => pathOf path >>= fun p =>
    .ok { standard with failFast := b, runtimeImport := p }

theorem ofLookup_eq (lookup : EnvVariable → Option String) :
    ofLookup lookup = combined (lookup .failFast) (lookup .runtimeImport) := by
  unfold ofLookup combined
  cases lookup .failFast <;> cases lookup .runtimeImport <;> rfl

section Reading

variable {flag path : Option String} {outcome : Except SettingsError Settings}

theorem combined_of_reading (h : Reading flag path outcome) : combined flag path = outcome := by
  unfold combined
  cases h with
  | blankFlag h =>
    rw [flagOf_of_blank h]
    rfl
  | unknownFlag hblank h =>
    rw [flagOf_of_unknown hblank h]
    rfl
  | blankPath hflag h =>
    rw [flagOf_eq_ok_iff.2 hflag, pathOf_of_blank h]
    rfl
  | inOrder hflag hpath =>
    rw [flagOf_eq_ok_iff.2 hflag, pathOf_eq_ok_iff.2 hpath]
    rfl

/-- Any two answers come to something. -/
theorem exists_reading (flag path : Option String) : ∃ outcome, Reading flag path outcome := by
  -- the path counts only if the flag is in order
  by_cases hflag : ∃ b, FlagSays flag b
  · obtain ⟨b, hflag⟩ := hflag
    cases path with
    | none => exact ⟨_, .inOrder hflag .unset⟩
    | some value =>
      by_cases hblank : Text.Blank value
      · exact ⟨_, .blankPath hflag hblank⟩
      · exact ⟨_, .inOrder hflag (pathSays_some_iff.2 ⟨rfl, hblank⟩)⟩
  · cases flag with
    | none => exact absurd ⟨false, .unset⟩ hflag
    | some value =>
      by_cases hblank : Text.Blank value
      · exact ⟨_, .blankFlag hblank⟩
      · exact ⟨_, .unknownFlag hblank (not_exists.1 hflag)⟩

/-- The rules say what two answers come to, and they say one thing only. -/
theorem combined_eq_iff : combined flag path = outcome ↔ Reading flag path outcome := by
  constructor
  · rintro rfl
    obtain ⟨outcome, h⟩ := exists_reading flag path
    rwa [combined_of_reading h]
  · exact combined_of_reading

theorem combined_eq_ok_iff {s : Settings} :
    combined flag path = .ok s ↔ ∃ b, FlagSays flag b ∧ ∃ p, PathSays path p ∧
      { standard with failFast := b, runtimeImport := p } = s := by
  simp only [combined, bind_eq_ok_iff, flagOf_eq_ok_iff, pathOf_eq_ok_iff, Except.ok.injEq]

theorem combined_eq_ok_iff_of_respelled {flag' path' : Option String} {s : Settings}
    (hflag : Option.Rel Text.Spells flag flag') (hpath : Option.Rel Text.Padded path path') :
    combined flag' path' = .ok s ↔ combined flag path = .ok s := by
  simp only [combined_eq_ok_iff, flagSays_iff_of_respelled hflag, pathSays_iff_of_padded hpath]

end Reading

/-! ### Changes -/

/-- The name of a setting. -/
inductive Key where
  | failFast
  | statusCode
  | errorTemplate
  | runtimeImport

/-- The type of a setting. -/
def Key.Value : Key → Type
  | failFast => Bool
  | statusCode => StatusCode
  | errorTemplate => String
  | runtimeImport => String

/-- The setting with a name. -/
def value (s : Settings) : (k : Key) → k.Value
  | .failFast => s.failFast
  | .statusCode => s.statusCode
  | .errorTemplate => s.errorTemplate
  | .runtimeImport => s.runtimeImport

/-- What a change sets a setting to, if it is the one that it changes. -/
def Change.value? : (k : Key) → Change → Option k.Value
  | .failFast, .failFast b => some b
  | .statusCode, .statusCode c => some c
  | .errorTemplate, .errorTemplate t => some t
  | .runtimeImport, .runtimeImport p => some p
  | _, _ => none

/-- A change sets one setting and leaves the others. -/
theorem value_apply (s : Settings) (c : Change) (k : Key) :
    (s.apply c).value k = (c.value? k).getD (s.value k) := by
  cases k <;> cases c <;> rfl

/-- After a row of changes a setting has the last value that it was set to, if there is one. -/
theorem value_foldl_apply (s : Settings) (changes : List Change) (k : Key) :
    (changes.foldl apply s).value k =
      ((changes.filterMap (Change.value? k)).getLast?).getD (s.value k) := by
  induction changes generalizing s with
  | nil => rfl
  | cons c rest ih =>
    rw [List.foldl_cons, ih, value_apply]
    cases hc : c.value? k with
    | none => rw [List.filterMap_cons_none hc, Option.getD_none]
    | some v =>
      rw [List.filterMap_cons_some hc, List.getLast?_cons, Option.getD_some, Option.getD_some]

/-- **Settings are read from two variables, and nothing else of the environment counts.** The
answers for the two come to what the rules say of them. Blanks around them, and for the flag the
case of ASCII letters, do not change the settings that they come to. After a row of changes each
setting has the last value that it was set to, and the one that was read if it was not. -/
theorem settings_read (lookup : String → Option String) :
    (∀ outcome, ofLookup (fun v => lookup v.name) = outcome ↔
      Reading (lookup "REDACT_PLAN_FAIL_FAST") (lookup "REDACT_PLAN_RUNTIME_IMPORT") outcome) ∧
    (∀ other : String → Option String,
      Option.Rel Text.Spells (lookup "REDACT_PLAN_FAIL_FAST") (other "REDACT_PLAN_FAIL_FAST") →
      Option.Rel Text.Padded (lookup "REDACT_PLAN_RUNTIME_IMPORT")
        (other "REDACT_PLAN_RUNTIME_IMPORT") →
      ∀ s, ofLookup (fun v => other v.name) = .ok s ↔ ofLookup (fun v => lookup v.name) = .ok s) ∧
    ∀ s, ofLookup (fun v => lookup v.name) = .ok s → ∀ (changes : List Change) (k : Key),
      (changes.foldl apply s).value k =
        ((changes.filterMap (Change.value? k)).getLast?).getD (s.value k) := by
  refine ⟨fun outcome => ?_, fun other hflag hpath s => ?_, fun s _ => value_foldl_apply s⟩
  · rw [ofLookup_eq]
    exact combined_eq_iff
  · rw [ofLookup_eq, ofLookup_eq]
    exact combined_eq_ok_iff_of_respelled hflag hpath

/-- An environment that sets the flag and the path. -/
def plainEnvironment (name : String) : Option String :=
  [("REDACT_PLAN_FAIL_FAST", "yes"),
    ("REDACT_PLAN_RUNTIME_IMPORT", "example.com/redact")].lookup name

/-- The same in capitals and with blanks, beside a variable that is not asked for. -/
def paddedEnvironment (name : String) : Option String :=
  [("REDACT_PLAN_STATUS", "0"), ("REDACT_PLAN_RUNTIME_IMPORT", "\u2028example.com/redact\n"),
    ("REDACT_PLAN_FAIL_FAST", "\t YES\u3000")].lookup name

/-- The settings of both. -/
def plainSettings : Settings :=
  { standard with failFast := true, runtimeImport := "example.com/redact" }

/-- Changes that set the flag twice, and the path never. -/
def flagChanges : List Change := [.failFast true, .statusCode .unavailable, .failFast false]

/-- An environment in which neither value is in order. -/
def brokenEnvironment (name : String) : Option String :=
  [("REDACT_PLAN_FAIL_FAST", " maybe"), ("REDACT_PLAN_RUNTIME_IMPORT", " ")].lookup name

/-- The two environments that are in order come to the same settings, of which the changes keep the
path. The word that is none is reported with its blank, and it goes before the path. -/
theorem settings_read_padded :
    ofLookup (fun v => plainEnvironment v.name) = .ok plainSettings ∧
      ofLookup (fun v => paddedEnvironment v.name) = .ok plainSettings ∧
      (flagChanges.foldl apply plainSettings).failFast = false ∧
      (flagChanges.foldl apply plainSettings).runtimeImport = "example.com/redact" ∧
      ofLookup (fun v => brokenEnvironment v.name) = .error (.invalidFlag .failFast " maybe") := by
  have hplain : ofLookup (fun v => plainEnvironment v.name) = .ok plainSettings := by
    refine ((settings_read plainEnvironment).1 _).2 (.inOrder ?_ ?_)
    · exact flagSays_some_iff.2 (by decide +kernel)
    · exact pathSays_some_iff.2 (by decide +kernel)
  have hpadded : ofLookup (fun v => paddedEnvironment v.name) = .ok plainSettings := by
    refine ((settings_read plainEnvironment).2.1 paddedEnvironment (.some ?_) (.some ?_) _).2 hplain
    · have hcase : Text.Recased "yes" "YES" := Text.lowerAscii_eq_iff.1 (by decide +kernel)
      exact ⟨"YES", hcase, "\t ", "\u3000", by decide +kernel⟩
    · exact ⟨"\u2028", "\n", by decide +kernel⟩
  have hchanged := (settings_read paddedEnvironment).2.2 _ hpadded flagChanges
  refine ⟨hplain, hpadded, hchanged .failFast, hchanged .runtimeImport, ?_⟩
  refine ((settings_read brokenEnvironment).1 _).2 (.unknownFlag (by decide +kernel) ?_)
  intro b
  rw [flagSays_some_iff]
  cases b <;> decide +kernel

end Redaction.Settings
