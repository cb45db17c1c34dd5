import Blocxx.Library.CReading
import Blocxx.Library.TransitionSystem
import Blocxx.String.String
import Mathlib.Tactic

/-!
This file embeds `EnvVars` for strings without zero bytes and proves that its array shows its map.
-/

namespace Blocxx.Environ

open Library Library.Memory Strings

/-- The character `'='`. -/
def EQUALS : UInt8 := 61

theorem ext_bytes {s1 s2 : CString} (same : s1.bytes = s2.bytes) : s1 = s2 := by
  obtain ⟨bytes, nonzero⟩ := s1
  cases same
  rfl

/-- The order of the keys. `operator<` uses `strcmp`, which compares the bytes without sign. -/
def compareKeys : CString → CString → Ordering := compareOn CString.bytes

instance : Std.TransCmp compareKeys := inferInstanceAs (Std.TransCmp (compareOn CString.bytes))

instance : Std.LawfulEqCmp compareKeys where
  eq_of_compare := by
    intro s1 s2 same
    have lawful : Std.LawfulEqOrd (List UInt8) := inferInstance
    exact ext_bytes (lawful.eq_of_compare same)

instance : DecidableEq CString := fun s1 s2 =>
  decidable_of_iff (s1.bytes = s2.bytes) ⟨ext_bytes, congrArg _⟩

abbrev EnvMap := Std.ExtTreeMap CString CString compareKeys

def noString : CString := ⟨[], List.not_mem_nil⟩

/-- The parts in front of the first `'='` and behind it. Without one they are empty. -/
def getKeyValue (strArg : CString) : CString × CString :=
  if EQUALS ∈ strArg.bytes then
    let p := strArg.bytes.idxOf EQUALS
    (⟨strArg.bytes.take p, fun mem => strArg.nonzero (List.mem_of_mem_take mem)⟩,
      ⟨strArg.bytes.drop (p + 1), fun mem => strArg.nonzero (List.mem_of_mem_drop mem)⟩)
  else (noString, noString)

def isValidKey (key : CString) : Bool := decide (key.bytes.length ≠ 0 ∧ EQUALS ∉ key.bytes)

/-- The body of the loop of `fillEnvMap`. -/
def fillEntry (envMap : EnvMap) (strArg : CString) : EnvMap :=
  let keyValue := getKeyValue strArg
  if isValidKey keyValue.1 then envMap.insert keyValue.1 keyValue.2 else envMap

/-- The array holds the strings in front of its null pointer. -/
def fillEnvMap (envp : List CString) : EnvMap := envp.foldl fillEntry ∅

/-- The block of one entry of the array. No answer is a write outside of the block. -/
def newEntry (key value : CString) : Option Memory :=
  let klen := key.bytes.length
  let vlen := value.bytes.length
  (writeBytes (allocate (klen + vlen + 2)) 0 (key.bytes ++ [0])).bind fun block =>
    (writeByte block klen EQUALS).bind fun block =>
      writeBytes block (klen + 1) (value.bytes ++ [0])

/-- The array `m_envp` holds the blocks in front of its null pointer. -/
structure EnvVars where
  m_envMap : EnvMap
  m_envp : Option (List Memory)

namespace EnvVars

/-- The constructor from an array. -/
def ofArray (envp : List CString) : EnvVars := ⟨fillEnvMap envp, none⟩

variable (env : EnvVars)

def deleteEnvp : EnvVars := { env with m_envp := none }

def getValue (key notFoundRetVal : CString) : CString := env.m_envMap[key]?.getD notFoundRetVal

def getenvp : Option (List Memory × EnvVars) :=
  match env.m_envp with
  | some m_envp => some (m_envp, env)
  | none =>
      (env.m_envMap.toList.mapM fun entry => newEntry entry.1 entry.2).map fun m_envp =>
        (m_envp, { env with m_envp := some m_envp })

def removeVar (varName : CString) : Bool × EnvVars :=
  if varName ∈ env.m_envMap then
    let env := env.deleteEnvp
    (true, { env with m_envMap := env.m_envMap.erase varName })
  else (false, env)

def addVar (name value : CString) : Bool × EnvVars :=
  if isValidKey name ∧ name ∉ env.m_envMap then
    let env := env.deleteEnvp
    (true, { env with m_envMap := env.m_envMap.insert name value })
  else (false, env)

def setVar (key value : CString) : Bool × EnvVars :=
  if isValidKey key then
    let env := env.deleteEnvp
    (true, { env with m_envMap := env.m_envMap.insert key value })
  else (false, env)

/-- The form of `setVar` with one argument. -/
def setKeyValue (keyValue : CString) : Bool × EnvVars :=
  let parts := getKeyValue keyValue
  env.setVar parts.1 parts.2

def updateVar (name value : CString) : Bool × EnvVars :=
  if name ∈ env.m_envMap then
    let env := env.deleteEnvp
    (true, { env with m_envMap := env.m_envMap.modify name fun _ => value })
  else (false, env)

end EnvVars

inductive Label where
  | getValue (key notFoundRetVal : CString)
  | getenvp
  | removeVar (varName : CString)
  | addVar (name value : CString)
  | setVar (key value : CString)
  | setKeyValue (keyValue : CString)
  | updateVar (name value : CString)

/-- What a call returns. -/
inductive Answer where
  | text (value : CString)
  | array (envp : List Memory)
  | flag (cc : Bool)

def flagged (result : Bool × EnvVars) : Answer × EnvVars := (.flag result.1, result.2)

/-- No answer is a call that writes outside of a block. -/
def Label.run (env : EnvVars) : Label → Option (Answer × EnvVars)
  | .getValue key notFoundRetVal => some (.text (env.getValue key notFoundRetVal), env)
  | .getenvp => env.getenvp.map fun result => (.array result.1, result.2)
  | .removeVar varName => some (flagged (env.removeVar varName))
  | .addVar name value => some (flagged (env.addVar name value))
  | .setVar key value => some (flagged (env.setVar key value))
  | .setKeyValue keyValue => some (flagged (env.setKeyValue keyValue))
  | .updateVar name value => some (flagged (env.updateVar name value))

/-- All sequences of calls on the variables of an array. -/
def system (envp : List CString) : TransitionSystem EnvVars Label :=
  .computed (fun env => env = .ofArray envp) fun env label => (label.run env).map Prod.snd

/-- The text `key=value` of an entry. -/
def entryText (entry : CString × CString) : List UInt8 :=
  entry.1.bytes ++ EQUALS :: entry.2.bytes

/-- The string at the start of a block. -/
def stringAt (block : Memory) : CString := ⟨cString block, zero_notMem_cString block⟩

section Entries

/-- The block holds exactly the text and its zero. -/
theorem newEntry_eq (key value : CString) :
    newEntry key value = some ((entryText (key, value)).map some ++ [some 0]) := by
  obtain ⟨key, keyFree⟩ := key
  obtain ⟨value, valueFree⟩ := value
  have sized : (allocate (key.length + value.length + 2)).length = key.length + value.length + 2 :=
    List.length_replicate
  have first : writeBytes (allocate (key.length + value.length + 2)) 0 (key ++ [0]) =
      some (key.map some ++ some 0 :: allocate (value.length + 1)) := by
    have behind : key.length + value.length + 2 - (key ++ [0]).length = value.length + 1 := by
      rw [List.length_append, List.length_singleton]
      omega
    have stored := store_append [] (allocate (key.length + value.length + 2)) (key ++ [0])
    rw [writeBytes, if_pos (by rw [sized, List.length_append, List.length_singleton]; omega)]
    refine congrArg some (stored.trans ?_)
    rw [allocate, List.drop_replicate, behind, List.nil_append, List.map_append, List.append_assoc]
    rfl
  have second : writeByte (key.map some ++ some 0 :: allocate (value.length + 1)) key.length EQUALS =
      some ((key ++ [EQUALS]).map some ++ allocate (value.length + 1)) := by
    have length : (key.map (some : UInt8 → Option UInt8)).length = key.length := List.length_map _
    rw [writeByte, if_pos (by rw [List.length_append, length, List.length_cons]; omega),
      List.set_append_right _ _ length.le, length, Nat.sub_self, List.set_cons_zero,
      List.map_append, List.append_assoc]
    rfl
  have third : writeBytes ((key ++ [EQUALS]).map some ++ allocate (value.length + 1))
      (key.length + 1) (value ++ [0]) =
      some ((key ++ EQUALS :: value).map some ++ [some 0]) := by
    have position : key.length + 1 = (key ++ [EQUALS]).length := by
      rw [List.length_append, List.length_singleton]
    have left : (allocate (value.length + 1)).length = (value ++ [0]).length := by
      rw [allocate, List.length_replicate, List.length_append, List.length_singleton]
    have block : ((key ++ [EQUALS]).map some ++ allocate (value.length + 1)).length =
        key.length + 1 + (value ++ [0]).length := by
      rw [List.length_append, List.length_map, left, position]
    have text : key ++ [EQUALS] ++ (value ++ [0]) = key ++ EQUALS :: value ++ [0] := by
      rw [List.append_assoc, List.append_assoc]
      rfl
    rw [writeBytes, if_pos block.ge, position, store_append, List.drop_of_length_le left.le,
      List.append_nil, text, List.map_append]
    rfl
  unfold newEntry
  dsimp only
  rw [first, Option.bind_some, second, Option.bind_some, third]
  rfl

theorem entryText_nonzero (entry : CString × CString) : (0 : UInt8) ∉ entryText entry := by
  obtain ⟨⟨key, keyFree⟩, ⟨value, valueFree⟩⟩ := entry
  rw [entryText, List.mem_append, List.mem_cons, not_or, not_or]
  exact ⟨keyFree, by decide, valueFree⟩

/-- The string of a block is the text of its entry. -/
theorem cString_entry (entry : CString × CString) :
    cString ((entryText entry).map some ++ [some 0]) = entryText entry :=
  cString_append (entryText_nonzero entry) []

theorem isValidKey_iff (key : CString) :
    isValidKey key = true ↔ key.bytes ≠ [] ∧ EQUALS ∉ key.bytes := by
  rw [isValidKey, decide_eq_true_eq, Ne, List.length_eq_zero_iff]

/-- The text of an entry is split where its key ends. -/
theorem getKeyValue_entry {key value : CString} (valid : isValidKey key = true) {strArg : CString}
    (text : strArg.bytes = entryText (key, value)) : getKeyValue strArg = (key, value) := by
  obtain ⟨text_, free⟩ := strArg
  subst text
  have valid := ((isValidKey_iff key).mp valid).2
  have index : (entryText (key, value)).idxOf EQUALS = key.bytes.length := by
    rw [entryText, List.idxOf_append_of_notMem valid, List.idxOf_cons_self, Nat.add_zero]
  have mem : EQUALS ∈ entryText (key, value) := List.mem_append_right _ List.mem_cons_self
  unfold getKeyValue
  dsimp only
  rw [if_pos mem]
  obtain ⟨key, keyFree⟩ := key
  obtain ⟨value, valueFree⟩ := value
  simp only [index]
  simp [entryText]

end Entries

section Invariant

/-- The array of a map. -/
def arrayOf (envMap : EnvMap) : List Memory :=
  envMap.toList.map fun entry => (entryText entry).map some ++ [some 0]

theorem mapM_newEntry (entries : List (CString × CString)) :
    (entries.mapM fun entry => newEntry entry.1 entry.2) =
      some (entries.map fun entry => (entryText entry).map some ++ [some 0]) := by
  induction entries with
  | nil => rfl
  | cons entry entries ih =>
      rw [List.mapM_cons, newEntry_eq, ih]
      rfl

/-- No key is empty or has a `'='`. -/
def Valid (envMap : EnvMap) : Prop := ∀ key ∈ envMap, isValidKey key = true

theorem Valid.insert {envMap : EnvMap} (valid : Valid envMap) {key : CString}
    (validKey : isValidKey key = true) (value : CString) : Valid (envMap.insert key value) := by
  intro other mem
  rcases Std.ExtTreeMap.mem_insert.mp mem with same | mem
  · rwa [← Std.LawfulEqCmp.eq_of_compare same]
  · exact valid other mem

theorem fillEnvMap_valid (envp : List CString) : Valid (fillEnvMap envp) := by
  have keeps (envMap : EnvMap) (valid : Valid envMap) : Valid (envp.foldl fillEntry envMap) := by
    induction envp generalizing envMap with
    | nil => exact valid
    | cons strArg envp ih =>
        apply ih
        unfold fillEntry
        dsimp only
        split
        next validKey => exact valid.insert validKey _
        · exact valid
  apply keeps
  intro key mem
  exact absurd mem Std.ExtTreeMap.not_mem_empty

/-- The loop inserts the entry of each text. -/
theorem foldl_fillEntry {entries : List (CString × CString)}
    (valid : ∀ entry ∈ entries, isValidKey entry.1 = true) (envMap : EnvMap)
    (envp : List CString) (texts : envp.map CString.bytes = entries.map entryText) :
    envp.foldl fillEntry envMap =
      entries.foldl (fun envMap entry => envMap.insert entry.1 entry.2) envMap := by
  induction entries generalizing envMap envp with
  | nil =>
      rw [List.map_nil, List.map_eq_nil_iff] at texts
      rw [texts]
      rfl
  | cons entry entries ih =>
      rw [List.map_cons, List.map_eq_cons_iff] at texts
      obtain ⟨strArg, rest, rfl, text, texts⟩ := texts
      rw [List.forall_mem_cons] at valid
      have filled : fillEntry envMap strArg = envMap.insert entry.1 entry.2 := by
        unfold fillEntry
        dsimp only
        rw [getKeyValue_entry valid.1 text]
        exact if_pos valid.1
      rw [List.foldl_cons, List.foldl_cons, filled]
      exact ih valid.2 _ rest texts

/-- The map of the entries of a map is this map. -/
theorem fillEnvMap_entries {envMap : EnvMap} (valid : Valid envMap) {envp : List CString}
    (texts : envp.map CString.bytes = envMap.toList.map entryText) : fillEnvMap envp = envMap := by
  have keys : ∀ entry ∈ envMap.toList, isValidKey entry.1 = true := by
    rintro ⟨key, value⟩ mem
    have found := Std.ExtTreeMap.mem_toList_iff_getElem?_eq_some.mp mem
    exact valid key (Std.ExtTreeMap.mem_iff_isSome_getElem?.mpr (Option.isSome_of_eq_some found))
  rw [fillEnvMap, foldl_fillEntry keys ∅ envp texts, ← Std.ExtTreeMap.ofList_eq_foldl]
  apply Std.ExtTreeMap.ext_getElem?
  intro key
  cases found : envMap[key]? with
  | some value =>
      exact Std.ExtTreeMap.getElem?_ofList_of_mem Std.ReflCmp.compare_self
        Std.ExtTreeMap.distinct_keys_toList
        (Std.ExtTreeMap.mem_toList_iff_getElem?_eq_some.mpr found)
  | none =>
      apply Std.ExtTreeMap.getElem?_ofList_of_contains_eq_false
      rw [List.contains_eq_mem, decide_eq_false_iff_not, List.mem_map]
      rintro ⟨⟨other, value⟩, mem, rfl⟩
      cases (Std.ExtTreeMap.mem_toList_iff_getElem?_eq_some.mp mem).symm.trans found

/-- The invariant: the keys are valid, and an array that is there shows the map. -/
structure Sound (env : EnvVars) : Prop where
  valid : Valid env.m_envMap
  cached : ∀ envp, env.m_envp = some envp → envp = arrayOf env.m_envMap

theorem sound_ofArray (envp : List CString) : Sound (.ofArray envp) := by
  refine ⟨fillEnvMap_valid envp, ?_⟩
  intro cached isCached
  cases isCached

variable {env : EnvVars}

theorem Sound.getenvp (sound : Sound env) :
    env.getenvp = some (arrayOf env.m_envMap, ⟨env.m_envMap, some (arrayOf env.m_envMap)⟩) := by
  obtain ⟨envMap, envp⟩ := env
  cases envp with
  | some envp =>
      rw [EnvVars.getenvp, sound.cached envp rfl]
  | none =>
      unfold EnvVars.getenvp
      dsimp only
      rw [mapM_newEntry]
      rfl

/-- A map with valid keys and no array. -/
theorem sound_changed {envMap : EnvMap} (valid : Valid envMap) : Sound ⟨envMap, none⟩ :=
  ⟨valid, fun _ isCached => by cases isCached⟩

/-- An operation keeps the invariant, and when it answers `false`, it changes nothing. -/
structure Keeps (env : EnvVars) (result : Bool × EnvVars) : Prop where
  sound : Sound result.2
  unchanged : result.1 = false → result.2 = env

theorem Sound.keeps_same (sound : Sound env) : Keeps env (false, env) := ⟨sound, fun _ => rfl⟩

theorem keeps_changed {envMap : EnvMap} (valid : Valid envMap) :
    Keeps env (true, ⟨envMap, none⟩) :=
  ⟨sound_changed valid, fun no => by cases no⟩

theorem Sound.removeVar (sound : Sound env) (varName : CString) :
    Keeps env (env.removeVar varName) := by
  unfold EnvVars.removeVar
  split
  · apply keeps_changed
    intro key mem
    exact sound.valid key (Std.ExtTreeMap.mem_erase.mp mem).2
  · exact sound.keeps_same

theorem Sound.addVar (sound : Sound env) (name value : CString) :
    Keeps env (env.addVar name value) := by
  unfold EnvVars.addVar
  split
  next new => exact keeps_changed (sound.valid.insert new.1 value)
  · exact sound.keeps_same

theorem Sound.setVar (sound : Sound env) (key value : CString) :
    Keeps env (env.setVar key value) := by
  unfold EnvVars.setVar
  split
  next validKey => exact keeps_changed (sound.valid.insert validKey value)
  · exact sound.keeps_same

theorem Sound.updateVar (sound : Sound env) (name value : CString) :
    Keeps env (env.updateVar name value) := by
  unfold EnvVars.updateVar
  split
  · apply keeps_changed
    intro key mem
    exact sound.valid key (Std.ExtTreeMap.mem_modify.mp mem)
  · exact sound.keeps_same

theorem Keeps.returns {result : Bool × EnvVars} (keeps : Keeps env result) :
    ∃ answer after, some (flagged result) = some (answer, after) ∧ Sound after ∧
      (answer = .flag false → after = env) := by
  refine ⟨_, _, rfl, keeps.sound, ?_⟩
  intro answers
  injection answers with no
  exact keeps.unchanged no

/-- Every call returns. It keeps the invariant, and when it answers `false`, it changes nothing. -/
theorem Sound.run (sound : Sound env) (label : Label) :
    ∃ answer after, label.run env = some (answer, after) ∧ Sound after ∧
      (answer = .flag false → after = env) := by
  cases label with
  | getValue key notFoundRetVal => exact ⟨_, env, rfl, sound, fun _ => rfl⟩
  | getenvp =>
      refine ⟨.array (arrayOf env.m_envMap), ⟨env.m_envMap, some (arrayOf env.m_envMap)⟩, ?_,
        ⟨sound.valid, ?_⟩, fun no => by cases no⟩
      · rw [Label.run, sound.getenvp]
        rfl
      · intro envp isCached
        cases isCached
        rfl
  | removeVar varName => exact (sound.removeVar varName).returns
  | addVar name value => exact (sound.addVar name value).returns
  | setVar key value => exact (sound.setVar key value).returns
  | setKeyValue keyValue => exact (sound.setVar _ _).returns
  | updateVar name value => exact (sound.updateVar name value).returns

theorem sound_of_reachable {envp : List CString} (reached : (system envp).Reachable env) :
    Sound env := by
  apply reached.invariant
  · rintro env rfl
    exact sound_ofArray envp
  · intro env label next _ sound taken
    obtain ⟨answer, after, returns, soundAfter, -⟩ := sound.run label
    have same : (label.run env).map Prod.snd = some next := taken
    rw [returns] at same
    cases same
    exact soundAfter

end Invariant

/-- The order of `operator<`. -/
def Less (s1 s2 : CString) : Prop :=
  ∃ result, strcmp (s1.bytes.map some ++ [some 0]) s2.bytes = some result ∧ result < 0

theorem less_of_compare {s1 s2 : CString} (less : compareKeys s1 s2 = .lt) : Less s1 s2 := by
  obtain ⟨result, compares, negative⟩ := strcmp_neg_iff s1.nonzero s2.nonzero []
  exact ⟨result, compares, negative.mpr less⟩

/-- After all calls the keys are valid, the array is the list of the entries in the order of their
keys, the map of this array is the map, and a call that answers `false` changes nothing. -/
theorem array_shows_map {envp : List CString} {env : EnvVars}
    (reached : (system envp).Reachable env) :
    (∀ key ∈ env.m_envMap, key.bytes ≠ [] ∧ EQUALS ∉ key.bytes) ∧
      (∃ array, env.getenvp = some (array, { env with m_envp := some array }) ∧
        array.map cString = env.m_envMap.toList.map entryText ∧
        (EnvVars.ofArray (array.map stringAt)).m_envMap = env.m_envMap) ∧
      (env.m_envMap.toList.Pairwise fun first second => Less first.1 second.1) ∧
      ∀ label : Label, ∃ answer after, label.run env = some (answer, after) ∧
        (answer = .flag false → after = env) := by
  have sound := sound_of_reachable reached
  have texts : (arrayOf env.m_envMap).map cString = env.m_envMap.toList.map entryText := by
    rw [arrayOf, List.map_map]
    exact List.map_congr_left fun entry _ => cString_entry entry
  refine ⟨?_, ⟨arrayOf env.m_envMap, sound.getenvp, texts, ?_⟩, ?_, ?_⟩
  · intro key mem
    exact (isValidKey_iff key).mp (sound.valid key mem)
  · apply fillEnvMap_entries sound.valid
    rw [List.map_map]
    exact texts
  · exact Std.ExtTreeMap.ordered_keys_toList.imp less_of_compare
  · intro label
    obtain ⟨answer, after, returns, -, unchanged⟩ := sound.run label
    exact ⟨answer, after, returns, unchanged⟩

/-- The array `A=1`, `B`, and the variable `B=2=` that is set after it. -/
def twoVariables : EnvVars :=
  ((EnvVars.ofArray [⟨[65, 61, 49], by decide⟩, ⟨[66], by decide⟩]).setKeyValue
    ⟨[66, 61, 50, 61], by decide⟩).2

theorem array_shows_two :
    ∃ array, twoVariables.getenvp = some (array, { twoVariables with m_envp := some array }) ∧
      array.map cString = [[65, 61, 49], [66, 61, 50, 61]] := by
  have reached : (system [⟨[65, 61, 49], by decide⟩, ⟨[66], by decide⟩]).Reachable twoVariables :=
    @TransitionSystem.Reachable.step _ _ _ _ _ (.setKeyValue ⟨[66, 61, 50, 61], by decide⟩)
      (.initial rfl) rfl
  obtain ⟨-, ⟨array, returns, texts, -⟩, -⟩ := array_shows_map reached
  have entries : twoVariables.m_envMap.toList.map entryText = [[65, 61, 49], [66, 61, 50, 61]] := by
    decide +kernel
  exact ⟨array, returns, texts.trans entries⟩

end Blocxx.Environ
