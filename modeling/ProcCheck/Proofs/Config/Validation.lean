import ProcCheck.Config
import ProcCheck.Proofs.Yaml.Ordered

/-!
# Valid settings

A mapping holds settings if each of its entries has a known key and a value that the setting takes.
One step enters one entry: it changes that setting alone, or refuses the entry in words that name
its key. So a whole run gives each setting the value that the mapping has for its key, and the first
bad entry decides how a mapping is refused, whatever stands behind it.
-/

namespace ProcCheck

open Yaml (Value)

/-- A setting of a project. -/
inductive Setting where
  | entry
  | sources
  | logDir
  | failOnDiagnostics
  deriving DecidableEq

namespace Setting

/-- The key of a setting. -/
def key : Setting → Text
  | entry => "entry"
  | sources => "sources"
  | logDir => "logDir"
  | failOnDiagnostics => "failOnDiagnostics"

/-- The setting that a key stands for. -/
def ofKey? (key : Text) : Option Setting :=
  [entry, sources, logDir, failOnDiagnostics].find? (·.key = key)

/-- The values that a setting takes. -/
inductive Takes : Setting → Value → Prop
  | entry {t : Text} (nonempty : t ≠ []) : Takes .entry (.string t)
  | sources {items : List Value} (paths : ∀ item ∈ items, ∃ t, item = .string t) :
      Takes .sources (.list items)
  | logDir (t : Text) : Takes .logDir (.string t)
  | failOnDiagnostics (b : Bool) : Takes .failOnDiagnostics (.bool b)

/-- What a value must be that a setting takes. -/
def requirement : Setting → Text
  | entry => "a non-empty string"
  | sources => "a list of file paths"
  | logDir => "a string"
  | failOnDiagnostics => "true or false"

/-- The fault of a value that a setting does not take. -/
def fault : Setting → ConfigFault
  | entry => .badEntry
  | sources => .badSources
  | logDir => .badLogDir
  | failOnDiagnostics => .badFailOnDiagnostics

theorem ofKey?_key (s : Setting) : ofKey? s.key = some s := by
  cases s <;> decide

theorem key_of_ofKey? {key : Text} {s : Setting} (found : ofKey? key = some s) : s.key = key := by
  unfold ofKey? at found
  simpa using List.find?_some found

theorem ofKey?_eq_none {key : Text} : ofKey? key = none ↔ ∀ s : Setting, s.key ≠ key := by
  constructor
  · intro unknown s isKey
    rw [← isKey, ofKey?_key] at unknown
    cases unknown
  · intro unknown
    cases found : ofKey? key with
    | none => rfl
    | some s => exact absurd (key_of_ofKey? found) (unknown s)

theorem key_injective {s s' : Setting} (same : s.key = s'.key) : s = s' := by
  apply Option.some.inj
  rw [← ofKey?_key s, ← ofKey?_key s', same]

/-- No key of a setting is an index. -/
theorem index?_key (s : Setting) : Text.index? s.key = none := by
  cases s <;> decide

end Setting

/-- The value of a setting as a document writes it. -/
def Config.value (c : Config) : Setting → Value
  | .entry => .string c.entry
  | .sources => .list (c.sources.map .string)
  | .logDir => .string c.logDir
  | .failOnDiagnostics => .bool c.failOnDiagnostics

/-- The fault of an entry with this key. -/
def ConfigFault.ofKey (key : Text) : ConfigFault :=
  match Setting.ofKey? key with
  | some s => s.fault
  | none => .unknownKey key

/-- How a bad entry of a file is refused: by what its value must be, or as unknown. -/
def ConfigFault.keyText (file key : Text) : Text :=
  match Setting.ofKey? key with
  | some s => "'" ++ key ++ "' in " ++ file ++ " must be " ++ s.requirement
  | none => "Unknown key '" ++ key ++ "' in " ++ file

theorem ConfigFault.message_ofKey (file key : Text) :
    (ofKey key).message file = keyText file key := by
  unfold ofKey keyText
  cases found : Setting.ofKey? key with
  | none => rfl
  | some s =>
    rw [← Setting.key_of_ofKey? found]
    cases s <;> simp only [List.append_assoc] <;> rfl

namespace Config

/-- An entry of a mapping that sets something. -/
def IsValid (e : Text × Value) : Prop := ∃ s : Setting, s.key = e.1 ∧ s.Takes e.2

theorem ext_value {c c' : Config} (same : ∀ s, c.value s = c'.value s) : c = c' := by
  have sources : c.sources = c'.sources :=
    List.map_injective_iff.2 (fun _ _ => Value.string.inj) (Value.list.inj (same .sources))
  have entry : c.entry = c'.entry := Value.string.inj (same .entry)
  have logDir : c.logDir = c'.logDir := Value.string.inj (same .logDir)
  have fails : c.failOnDiagnostics = c'.failOnDiagnostics :=
    Value.bool.inj (same .failOnDiagnostics)
  cases c
  cases c'
  simp_all

/-! ## One entry -/

theorem mapM_string? {items : List Value} {ts : List Text} :
    items.mapM Value.string? = some ts ↔ items = ts.map .string := by
  induction items generalizing ts with
  | nil => cases ts <;> simp
  | cons item items ih =>
    rw [List.mapM_cons, Option.bind_eq_bind, Option.bind_eq_some_iff]
    constructor
    · rintro ⟨t, isText, rest⟩
      obtain ⟨later, areTexts, same⟩ := Option.bind_eq_some_iff.1 rest
      cases same
      rw [List.map_cons, ih.1 areTexts]
      cases item <;> cases isText
      rfl
    · intro same
      cases ts with
      | nil => cases same
      | cons t later =>
        obtain ⟨rfl, rest⟩ := List.cons.inj same
        exact ⟨t, rfl, by rw [ih.2 rest]; rfl⟩

theorem exists_strings {items : List Value} (each : ∀ item ∈ items, ∃ t, item = .string t) :
    ∃ ts : List Text, items = ts.map .string := by
  induction items with
  | nil => exact ⟨[], rfl⟩
  | cons item items ih =>
    obtain ⟨⟨t, rfl⟩, later⟩ := List.forall_mem_cons.1 each
    obtain ⟨ts, rfl⟩ := ih later
    exact ⟨t :: ts, rfl⟩

/-- A valid entry changes its setting alone. -/
theorem set_valid (c : Config) {s : Setting} {v : Value} (takes : s.Takes v) :
    ∃ c', c.set s.key v = .ok c' ∧ c'.value s = v ∧ ∀ s' ≠ s, c'.value s' = c.value s' := by
  cases takes with
  | entry nonempty =>
    obtain ⟨u, t, rfl⟩ := List.exists_cons_of_ne_nil nonempty
    refine ⟨{ c with entry := u :: t }, rfl, rfl, ?_⟩
    intro s' other
    cases s' <;> trivial
  | sources paths =>
    obtain ⟨ts, rfl⟩ := exists_strings paths
    refine ⟨{ c with sources := ts }, ?_, rfl, ?_⟩
    · have read := mapM_string?.2 (Eq.refl (ts.map Value.string))
      unfold set
      rw [if_neg (by decide), if_pos (by decide)]
      simp only [read]
    · intro s' other
      cases s' <;> trivial
  | logDir t =>
    refine ⟨{ c with logDir := t }, rfl, rfl, ?_⟩
    intro s' other
    cases s' <;> trivial
  | failOnDiagnostics b =>
    refine ⟨{ c with failOnDiagnostics := b }, rfl, rfl, ?_⟩
    intro s' other
    cases s' <;> trivial

/-- An entry that is not valid is refused for its key. -/
theorem set_invalid (c : Config) {key : Text} {v : Value} (invalid : ¬ IsValid (key, v)) :
    c.set key v = .error (.ofKey key) := by
  cases found : Setting.ofKey? key with
  | none =>
    have other (s : Setting) : key ≠ s.key := (Setting.ofKey?_eq_none.1 found s).symm
    have fault : ConfigFault.ofKey key = .unknownKey key := by rw [ConfigFault.ofKey, found]
    unfold set
    rw [fault, if_neg (show key ≠ "entry" from other .entry),
      if_neg (show key ≠ "sources" from other .sources),
      if_neg (show key ≠ "logDir" from other .logDir),
      if_neg (show key ≠ "failOnDiagnostics" from other .failOnDiagnostics)]
  | some s =>
    obtain rfl := Setting.key_of_ofKey? found
    have fault : ConfigFault.ofKey s.key = s.fault := by rw [ConfigFault.ofKey, found]
    have notTaken : ¬ s.Takes v := fun takes => invalid ⟨s, rfl, takes⟩
    rw [fault]
    cases s with
    | entry =>
      unfold set
      rw [if_pos (by decide)]
      split
      next u t => exact absurd (.entry (List.cons_ne_nil u t)) notTaken
      · rfl
    | sources =>
      unfold set
      rw [if_neg (by decide), if_pos (by decide)]
      split
      next items =>
        split
        next ts read =>
          apply absurd (Setting.Takes.sources _) notTaken
          rw [mapM_string?.1 read]
          simp
        · rfl
      · rfl
    | logDir =>
      unfold set
      rw [if_neg (by decide), if_neg (by decide), if_pos (by decide)]
      split
      next t => exact absurd (.logDir t) notTaken
      · rfl
    | failOnDiagnostics =>
      unfold set
      rw [if_neg (by decide), if_neg (by decide), if_neg (by decide), if_pos (by decide)]
      split
      next b => exact absurd (.failOnDiagnostics b) notTaken
      · rfl

/-! ## Keys of a mapping -/

section Lookup

variable {entries entries' : List (Text × Value)} {key : Text}

theorem lookup_eq_none (absent : key ∉ entries.map Prod.fst) : entries.lookup key = none := by
  apply List.lookup_eq_none_iff.2
  intro e member
  apply bne_iff_ne.2
  rintro rfl
  exact absent (List.mem_map_of_mem member)

theorem lookup_of_mem (distinct : (entries.map Prod.fst).Nodup) {v : Value}
    (member : (key, v) ∈ entries) : entries.lookup key = some v := by
  obtain ⟨before, after, rfl⟩ := List.append_of_mem member
  rw [List.map_append] at distinct
  apply List.lookup_eq_some_iff.2
  refine ⟨before, after, rfl, ?_⟩
  intro e earlier
  apply bne_iff_ne.2
  rintro rfl
  exact List.nodup_append.1 distinct |>.2.2 _ (List.mem_map_of_mem earlier) _ (by simp) rfl

theorem lookup_perm (distinct : (entries.map Prod.fst).Nodup) (perm : entries'.Perm entries) :
    entries'.lookup key = entries.lookup key := by
  cases found : entries.lookup key with
  | none =>
    apply lookup_eq_none
    intro present
    obtain ⟨e, member, rfl⟩ := List.mem_map.1 ((perm.map Prod.fst).mem_iff.1 present)
    rw [lookup_of_mem distinct member] at found
    cases found
  | some v =>
    apply lookup_of_mem ((perm.map Prod.fst).nodup_iff.2 distinct)
    apply perm.mem_iff.2
    obtain ⟨before, after, rfl, -⟩ := List.lookup_eq_some_iff.1 found
    simp

end Lookup

/-! ## All entries -/

/-- The settings with the entries of a mapping, one after the other. -/
def setAll (c : Config) (entries : List (Text × Value)) : Except ConfigFault Config :=
  entries.foldlM (fun c e => c.set e.1 e.2) c

theorem ofValue_mapping (entries : List (Text × Value)) :
    ofValue (.mapping entries) = setAll {} entries :=
  rfl

variable {c c' : Config} {entries : List (Text × Value)}

theorem setAll_cons {e : Text × Value} (first : c.set e.1 e.2 = .ok c') :
    c.setAll (e :: entries) = c'.setAll entries := by
  unfold setAll
  rw [List.foldlM_cons, first]
  rfl

theorem setAll_valid (c : Config) (valid : ∀ e ∈ entries, IsValid e) :
    ∃ c', c.setAll entries = .ok c' := by
  induction entries generalizing c with
  | nil => exact ⟨c, rfl⟩
  | cons e entries ih =>
    obtain ⟨⟨s, isKey, takes⟩, later⟩ := List.forall_mem_cons.1 valid
    obtain ⟨next, first, -⟩ := c.set_valid takes
    rw [isKey] at first
    rw [setAll_cons first]
    exact ih next later

/-- The first bad entry refuses all, whatever stands behind it. -/
theorem setAll_invalid (c : Config) {key : Text} {v : Value} (after : List (Text × Value))
    (valid : ∀ e ∈ entries, IsValid e) (invalid : ¬ IsValid (key, v)) :
    c.setAll (entries ++ (key, v) :: after) = .error (.ofKey key) := by
  obtain ⟨next, before⟩ := c.setAll_valid valid
  unfold setAll at before ⊢
  rw [List.foldlM_append, before]
  change (next.set key v).bind _ = _
  rw [next.set_invalid invalid]
  rfl

/-- Where some entry is bad, one is the first. -/
theorem exists_first_invalid (bad : ¬ ∀ e ∈ entries, IsValid e) : ∃ before key v after,
    entries = before ++ (key, v) :: after ∧ (∀ e ∈ before, IsValid e) ∧ ¬ IsValid (key, v) := by
  induction entries with
  | nil => exact absurd nofun bad
  | cons e entries ih =>
    by_cases valid : IsValid e
    · have later : ¬ ∀ e ∈ entries, IsValid e :=
        fun each => bad (List.forall_mem_cons.2 ⟨valid, each⟩)
      obtain ⟨before, key, v, after, rfl, ofBefore, invalid⟩ := ih later
      exact ⟨e :: before, key, v, after, rfl, List.forall_mem_cons.2 ⟨valid, ofBefore⟩, invalid⟩
    · exact ⟨[], e.1, e.2, entries, rfl, nofun, valid⟩

theorem setAll_ok_iff : (∃ c', c.setAll entries = .ok c') ↔ ∀ e ∈ entries, IsValid e := by
  constructor
  · rintro ⟨c', read⟩
    by_contra bad
    obtain ⟨before, key, v, after, rfl, valid, invalid⟩ := exists_first_invalid bad
    rw [c.setAll_invalid after valid invalid] at read
    cases read
  · exact c.setAll_valid

theorem setAll_error_iff {fault : ConfigFault} : c.setAll entries = .error fault ↔
    ∃ before key v after, entries = before ++ (key, v) :: after ∧ (∀ e ∈ before, IsValid e) ∧
      ¬ IsValid (key, v) ∧ fault = .ofKey key := by
  constructor
  · intro refused
    have bad : ¬ ∀ e ∈ entries, IsValid e := by
      intro valid
      obtain ⟨c', read⟩ := c.setAll_valid valid
      rw [read] at refused
      cases refused
    obtain ⟨before, key, v, after, rfl, valid, invalid⟩ := exists_first_invalid bad
    rw [c.setAll_invalid after valid invalid] at refused
    exact ⟨before, key, v, after, rfl, valid, invalid, (Except.error.inj refused).symm⟩
  · rintro ⟨before, key, v, after, rfl, valid, invalid, rfl⟩
    exact c.setAll_invalid after valid invalid

/-- Each setting has the value of its key, and stays as it is without that key. -/
theorem value_setAll (distinct : (entries.map Prod.fst).Nodup) (read : c.setAll entries = .ok c')
    (s : Setting) : c'.value s = (entries.lookup s.key).getD (c.value s) := by
  induction entries generalizing c with
  | nil =>
    cases read
    rfl
  | cons e entries ih =>
    obtain ⟨new, others⟩ := List.nodup_cons.1 distinct
    obtain ⟨⟨s', isKey, takes⟩, -⟩ := List.forall_mem_cons.1 (setAll_ok_iff.1 ⟨c', read⟩)
    obtain ⟨key, v⟩ := e
    subst isKey
    obtain ⟨next, first, changed, kept⟩ := c.set_valid takes
    rw [setAll_cons first] at read
    rw [ih others read]
    by_cases same : s = s'
    · subst same
      rw [lookup_eq_none new, List.lookup_cons_self, Option.getD_none, changed, Option.getD_some]
    · have other : (s.key == s'.key) = false :=
        beq_eq_false_iff_ne.2 fun sameKey => same (Setting.key_injective sameKey)
      rw [kept s same, List.lookup_cons, other]

/-- The order of the entries makes no difference to the settings. -/
theorem setAll_perm {entries' : List (Text × Value)} (distinct : (entries.map Prod.fst).Nodup)
    (perm : entries'.Perm entries) (read : c.setAll entries = .ok c') :
    c.setAll entries' = .ok c' := by
  have valid : ∀ e ∈ entries', IsValid e := fun e member =>
    setAll_ok_iff.1 ⟨c', read⟩ e (perm.mem_iff.1 member)
  obtain ⟨c'', read'⟩ := c.setAll_valid valid
  have distinct' := (perm.map Prod.fst).nodup_iff.2 distinct
  have same : c'' = c' := by
    apply ext_value
    intro s
    rw [value_setAll distinct' read', value_setAll distinct read, lookup_perm distinct perm]
  rw [read', same]

/-! ## Values -/

/-- A value is null, a mapping, or refused as neither. -/
theorem null_or_mapping (value : Value) : value = .null ∨ (∃ entries, value = .mapping entries) ∨
    value ≠ .null ∧ (∀ entries, value ≠ .mapping entries) ∧
      ofValue value = .error .notMapping := by
  cases value with
  | null => exact .inl rfl
  | mapping entries => exact .inr (.inl ⟨entries, rfl⟩)
  | _ => exact .inr (.inr ⟨nofun, nofun, rfl⟩)

theorem ofValue_ok_iff {value : Value} : (∃ c, ofValue value = .ok c) ↔
    value = .null ∨ ∃ entries, value = .mapping entries ∧ ∀ e ∈ entries, IsValid e := by
  rcases null_or_mapping value with rfl | ⟨entries, rfl⟩ | ⟨notNull, notMapping, refused⟩
  · exact ⟨fun _ => .inl rfl, fun _ => ⟨{}, rfl⟩⟩
  · rw [ofValue_mapping, setAll_ok_iff]
    constructor
    · intro valid
      exact .inr ⟨entries, rfl, valid⟩
    · rintro (isNull | ⟨entries', same, valid⟩)
      · cases isNull
      · cases same
        exact valid
  · constructor
    · rintro ⟨c, read⟩
      rw [refused] at read
      cases read
    · rintro (isNull | ⟨entries, same, -⟩)
      · exact absurd isNull notNull
      · exact absurd same (notMapping entries)

/-- The settings that a value holds are those of its keys, or else the default ones. -/
theorem ofValue_eq_ok {value : Value} (ordered : value.IsOrdered) : ofValue value = .ok c ↔
    value = .null ∧ c = {} ∨ ∃ entries, value = .mapping entries ∧ (∀ e ∈ entries, IsValid e) ∧
      ∀ s, c.value s = (entries.lookup s.key).getD (Config.value {} s) := by
  constructor
  · intro read
    rcases ofValue_ok_iff.1 ⟨c, read⟩ with rfl | ⟨entries, rfl, valid⟩
    · exact .inl ⟨rfl, (Except.ok.inj read).symm⟩
    · exact .inr ⟨entries, rfl, valid, value_setAll ordered.distinct read⟩
  · rintro (⟨rfl, rfl⟩ | ⟨entries, rfl, valid, values⟩)
    · rfl
    · obtain ⟨c', read⟩ := setAll_valid {} valid
      have same : c' = c := by
        apply ext_value
        intro s
        rw [value_setAll ordered.distinct read, values]
      rw [ofValue_mapping, read, same]

theorem ofValue_error_iff {value : Value} {fault : ConfigFault} : ofValue value = .error fault ↔
    (∃ before key v after, value = .mapping (before ++ (key, v) :: after) ∧
      (∀ e ∈ before, IsValid e) ∧ ¬ IsValid (key, v) ∧ fault = .ofKey key) ∨
    value ≠ .null ∧ (∀ entries, value ≠ .mapping entries) ∧ fault = .notMapping := by
  rcases null_or_mapping value with rfl | ⟨entries, rfl⟩ | ⟨notNull, notMapping, refused⟩
  · constructor
    · nofun
    · rintro (⟨_, _, _, _, same, -⟩ | ⟨notNull, -⟩)
      · cases same
      · exact absurd rfl notNull
  · rw [ofValue_mapping, setAll_error_iff]
    constructor
    · rintro ⟨before, key, v, after, rfl, found⟩
      exact .inl ⟨before, key, v, after, rfl, found⟩
    · rintro (⟨before, key, v, after, same, found⟩ | ⟨-, notMapping, -⟩)
      · exact ⟨before, key, v, after, Value.mapping.inj same, found⟩
      · exact absurd rfl (notMapping entries)
  · rw [refused]
    constructor
    · intro same
      exact .inr ⟨notNull, notMapping, (Except.error.inj same).symm⟩
    · rintro (⟨_, _, _, _, same, -⟩ | ⟨-, -, rfl⟩)
      · exact absurd same (notMapping _)
      · rfl

/-- Every default is taken by its own setting. -/
theorem takes_default (s : Setting) : s.Takes (Config.value {} s) := by
  cases s with
  | entry => exact .entry (by decide)
  | sources => exact .sources nofun
  | logDir => exact .logDir _
  | failOnDiagnostics => exact .failOnDiagnostics _

/-- Settings that are read have values that the settings take: the entry has a name. -/
theorem takes_value {value : Value} (ordered : value.IsOrdered) (read : ofValue value = .ok c)
    (s : Setting) : s.Takes (c.value s) := by
  rcases (ofValue_eq_ok ordered).1 read with ⟨-, rfl⟩ | ⟨entries, rfl, valid, values⟩
  · exact takes_default s
  rw [values]
  cases found : entries.lookup s.key with
  | none => exact takes_default s
  | some v =>
    obtain ⟨before, after, rfl, -⟩ := List.lookup_eq_some_iff.1 found
    obtain ⟨s', isKey, takes⟩ := valid (s.key, v) (by simp)
    obtain rfl := Setting.key_injective isKey
    exact takes

theorem mapError_eq_ok {ε ε' α : Type} {f : ε → ε'} {x : Except ε α} {a : α} :
    x.mapError f = .ok a ↔ x = .ok a := by
  cases x <;> simp [Except.mapError]

theorem mapError_eq_error {ε ε' α : Type} {f : ε → ε'} {x : Except ε α} {e' : ε'} :
    x.mapError f = .error e' ↔ ∃ e, x = .error e ∧ e' = f e := by
  cases x <;> simp [Except.mapError, eq_comm]

/-- Of all keys that are indices the least is refused, wherever it is written: no setting has an
index as its key, and the indices come first. -/
theorem ofValue_index {written : List (Text × Value)} {e : Text × Value} (member : e ∈ written)
    {n : Nat} (index : Text.index? e.1 = some n)
    (least : ∀ e' ∈ written, ∀ m, Text.index? e'.1 = some m → n ≤ m) :
    ofValue (.mapping (Text.inKeyOrder Prod.fst written)) = .error (.unknownKey e.1) := by
  obtain ⟨first, rest, order, same⟩ := Text.inKeyOrder_least member index least
  rw [ofValue_mapping, order, ← same]
  rw [← same] at index
  have unknown : ∀ s : Setting, s.key ≠ first.1 := by
    intro s isKey
    rw [← isKey, s.index?_key] at index
    cases index
  have invalid : ¬ IsValid first := fun ⟨s, isKey, _⟩ => unknown s isKey
  have fault : ConfigFault.ofKey first.1 = .unknownKey first.1 := by
    rw [ConfigFault.ofKey, Setting.ofKey?_eq_none.2 unknown]
  rw [← fault]
  exact setAll_error_iff.2 ⟨[], first.1, first.2, rest, rfl, nofun, invalid, rfl⟩

/-- Settings are read from null and from mappings whose entries are valid. Each setting then has the
value that the mapping has for its key, or else its default, so mappings that differ only in the
order of their entries give the same settings. A mapping that is refused is so in the words for its
first bad entry, whatever stands behind it, and any other value because it is no mapping. -/
theorem ofValue_exact (file : Text) {value : Value} (ordered : value.IsOrdered) :
    let read := (ofValue value).mapError (·.message file)
    (∀ (load : Yaml.Loader) (text : Text), load text = .ok value →
      ofText text load = (ofValue value).mapError .invalid) ∧
    ((∃ c, read = .ok c) ↔
      value = .null ∨ ∃ entries, value = .mapping entries ∧ ∀ e ∈ entries, IsValid e) ∧
    (value = .null → read = .ok {}) ∧
    (∀ entries, value = .mapping entries → ∀ c, read = .ok c →
      (∀ s, c.value s = (entries.lookup s.key).getD (Config.value {} s)) ∧
      ∀ entries', entries'.Perm entries →
        (ofValue (.mapping entries')).mapError (·.message file) = .ok c) ∧
    ∀ text, read = .error text ↔
      (∃ before key v after, value = .mapping (before ++ (key, v) :: after) ∧
        (∀ e ∈ before, IsValid e) ∧ ¬ IsValid (key, v) ∧
        text = ConfigFault.keyText file key) ∨
      value ≠ .null ∧ (∀ entries, value ≠ .mapping entries) ∧
        text = file ++ " must contain a mapping" := by
  intro read
  refine ⟨?texts, ?succeeds, ?null, ?fields, ?refused⟩
  case texts =>
    intro load text document
    rw [ofText, document]
  case succeeds =>
    simp only [read, mapError_eq_ok]
    exact ofValue_ok_iff
  case null =>
    rintro rfl
    rfl
  case fields =>
    rintro entries rfl c isRead
    rw [mapError_eq_ok, ofValue_mapping] at isRead
    refine ⟨value_setAll ordered.distinct isRead, fun entries' perm => ?_⟩
    rw [mapError_eq_ok, ofValue_mapping]
    exact setAll_perm ordered.distinct perm isRead
  case refused =>
    intro text
    rw [mapError_eq_error]
    constructor
    · rintro ⟨fault, refused, rfl⟩
      rcases ofValue_error_iff.1 refused with
        ⟨before, key, v, after, same, valid, invalid, rfl⟩ | ⟨notNull, notMapping, rfl⟩
      · exact .inl ⟨before, key, v, after, same, valid, invalid,
          ConfigFault.message_ofKey file key⟩
      · exact .inr ⟨notNull, notMapping, rfl⟩
    · rintro (⟨before, key, v, after, same, valid, invalid, rfl⟩ | ⟨notNull, notMapping, rfl⟩)
      · refine ⟨.ofKey key, ofValue_error_iff.2 ?_, (ConfigFault.message_ofKey file key).symm⟩
        exact .inl ⟨before, key, v, after, same, valid, invalid, rfl⟩
      · exact ⟨.notMapping, ofValue_error_iff.2 (.inr ⟨notNull, notMapping, rfl⟩), rfl⟩

/-- A bad entry name, written before two keys that are indices. -/
def misplacedKeys : List (Text × Value) :=
  [("entry", .string []), ("10", .null), ("2", .bool true)]

/-- Two settings; the others have their defaults. -/
def twoSettings : List (Text × Value) :=
  [("failOnDiagnostics", .bool false), ("entry", .string "start")]

theorem misplacedKeys_refused :
    (Value.mapping (Text.inKeyOrder Prod.fst misplacedKeys)).IsOrdered ∧
    (ofValue (.mapping (Text.inKeyOrder Prod.fst misplacedKeys))).mapError (·.message "a.yml") =
      .error "Unknown key '2' in a.yml" ∧
    (Value.mapping (Text.inKeyOrder Prod.fst twoSettings)).IsOrdered ∧
    (ofValue (.mapping (Text.inKeyOrder Prod.fst twoSettings))).mapError (·.message "a.yml") =
      .ok { entry := "start", failOnDiagnostics := false } := by
  have misplaced : (Value.mapping (Text.inKeyOrder Prod.fst misplacedKeys)).IsOrdered := by
    refine .mapping (by decide) fun e member => ?_
    simp only [misplacedKeys, List.mem_cons, List.not_mem_nil, or_false] at member
    rcases member with rfl | rfl | rfl
    · exact .string _
    · exact .null
    · exact .bool _
  have two : (Value.mapping (Text.inKeyOrder Prod.fst twoSettings)).IsOrdered := by
    refine .mapping (by decide) fun e member => ?_
    simp only [twoSettings, List.mem_cons, List.not_mem_nil, or_false] at member
    rcases member with rfl | rfl
    · exact .bool _
    · exact .string _
  have order : Text.inKeyOrder Prod.fst misplacedKeys =
      ([("2", .bool true), ("10", .null), ("entry", .string [])] : List (Text × Value)) := by
    simp [misplacedKeys, Text.inKeyOrder, List.mergeSort, show Text.index? "entry" = none by decide,
      show Text.index? "10" = some 10 by decide, show Text.index? "2" = some 2 by decide]
  have unknown : ¬ IsValid ("2", .bool true) := by
    rintro ⟨s, isKey, -⟩
    cases s <;> exact absurd isKey (by decide)
  have message : Text.ofString "Unknown key '2' in a.yml" = ConfigFault.keyText "a.yml" "2" := by
    decide
  have valid : ∀ e ∈ Text.inKeyOrder Prod.fst twoSettings, IsValid e := by
    intro e member
    have written := Text.mem_inKeyOrder.1 member
    simp only [twoSettings, List.mem_cons, List.not_mem_nil, or_false] at written
    rcases written with rfl | rfl
    · exact ⟨.failOnDiagnostics, rfl, .failOnDiagnostics false⟩
    · exact ⟨.entry, rfl, .entry (by decide)⟩
  obtain ⟨-, -, -, -, refused⟩ := ofValue_exact "a.yml" misplaced
  obtain ⟨-, succeeds, -, fields, -⟩ := ofValue_exact "a.yml" two
  obtain ⟨c, read⟩ := succeeds.2 (.inr ⟨_, rfl, valid⟩)
  refine ⟨misplaced, ?_, two, ?_⟩
  · apply (refused _).2
    left
    rw [order]
    exact ⟨[], _, _, _, rfl, List.forall_mem_nil _, unknown, message⟩
  · rw [read]
    have values := (fields _ rfl c read).1
    rw [Text.inKeyOrder_plain (by decide)] at values
    apply congrArg
    apply ext_value
    intro s
    rw [values]
    cases s <;> rfl

/-! ## Texts -/

variable {load : Yaml.Loader} {text : Text}

/-- A text holds settings if it holds a document that is null or a mapping of valid entries. Each
setting has the value that the document has for its key, or else its default. That the loader gives
ordered values holds of `Value.ofText` by `Value.ofText_isOrdered`. -/
theorem ofText_ok_iff (ordered : load.IsOrdered) : ofText text load = .ok c ↔
    ∃ value, load text = .ok value ∧
      (value = .null ∧ c = {} ∨ ∃ entries, value = .mapping entries ∧
        (∀ e ∈ entries, IsValid e) ∧
        ∀ s, c.value s = (entries.lookup s.key).getD (Config.value {} s)) := by
  unfold ofText
  cases document : load text with
  | error fault => simp
  | ok value =>
    simp only [mapError_eq_ok, Except.ok.injEq, exists_eq_left']
    exact ofValue_eq_ok (ordered text value document)

/-- A text that is a document holds no settings if the first bad entry of its mapping says so, or if
it is no mapping. -/
theorem ofText_invalid_iff {fault : ConfigFault} :
    ofText text load = .error (.invalid fault) ↔ ∃ value, load text = .ok value ∧
      ((∃ before key v after, value = .mapping (before ++ (key, v) :: after) ∧
        (∀ e ∈ before, IsValid e) ∧ ¬ IsValid (key, v) ∧ fault = .ofKey key) ∨
      value ≠ .null ∧ (∀ entries, value ≠ .mapping entries) ∧ fault = .notMapping) := by
  unfold ofText
  cases document : load text with
  | error fault => simp
  | ok value =>
    simp only [mapError_eq_error, ConfigError.invalid.injEq, exists_eq_right', Except.ok.injEq,
      exists_eq_left']
    exact ofValue_error_iff

end Config

end ProcCheck
