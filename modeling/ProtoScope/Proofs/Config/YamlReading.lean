/-
What a reader gives back of what its writer made, one entry at a time.

A section is loaded by a chain of reads, each over the entries the writer wrote.  The lemmas
here take one read off such a chain: the entry is looked up, its value comes back, and the
rest of the chain goes on with it.
-/
import ProtoScope.Config.ConfigLoad

namespace ProtoScope.Config

section Reads

variable {α β : Type} {entries : List (String × YamlNode)} {key : String}

variable {next : α → Except String β} {result : Except String β} {value fallback : α}

theorem bind_eq {first : Except String α} (hfirst : first = .ok value) (hnext : next value = result)
    : (first >>= next) = result := by
  rw [hfirst]
  exact hnext

theorem as_yaml [YamlValue α] (value : α) : (yaml value).as = .ok value := by
  simp only [yaml, YamlNode.as, YamlValue.decode_encode]

theorem asOr_yaml [YamlValue α] (value fallback : α) : (yaml value).asOr fallback = value := by
  simp only [yaml, YamlNode.asOr, YamlValue.decode_encode, Option.getD_some]

theorem subscript_map : (YamlNode.map entries).subscript key = .ok (entries.lookup key) := rfl

theorem subscript_bind {node : Option YamlNode} {next : Option YamlNode → Except String β}
    (hentry : entries.lookup key = node) (hnext : next node = result) :
    ((YamlNode.map entries).subscript key >>= next) = result := by
  rw [subscript_map, hentry]
  exact hnext

theorem readScalar_eq [YamlValue α] (hentry : entries.lookup key = some (yaml value)) :
    readScalar (some (.map entries)) key fallback = .ok value := by
  simp only [readScalar, subscript_map, bind, Except.bind, hentry, as_yaml]

theorem readScalar_missing [YamlValue α] (hentry : entries.lookup key = none) :
    readScalar (some (.map entries)) key fallback = .ok fallback := by
  simp only [readScalar, subscript_map, bind, Except.bind, hentry]
  rfl

/-- A read takes the entry's value on. -/
theorem read_bind [YamlValue α] (hentry : entries.lookup key = some (yaml value))
    (hnext : next value = result) :
    (readScalar (some (.map entries)) key fallback >>= next) = result := by
  exact bind_eq (readScalar_eq hentry) hnext

theorem read_missing_bind [YamlValue α] (hentry : entries.lookup key = none)
    (hnext : next fallback = result) :
    (readScalar (some (.map entries)) key fallback >>= next) = result := by
  rw [readScalar_missing hentry]
  exact hnext

theorem readEnum_eq [BEq α] [YamlEnum α]
    (hentry : entries.lookup key = some (yaml (enumToText value))) :
    readEnum (some (.map entries)) key fallback = .ok value := by
  refine read_bind hentry ?_
  exact congrArg Except.ok (lookupEnum_enumToText value fallback)

theorem readEnum_bind [BEq α] [YamlEnum α]
    (hentry : entries.lookup key = some (yaml (enumToText value))) (hnext : next value = result) :
    (readEnum (some (.map entries)) key fallback >>= next) = result := by
  rw [readEnum_eq hentry]
  exact hnext

/-- A section that is there is loaded. -/
theorem section_bind {node : YamlNode} {load : YamlNode → Except String α}
    (hentry : entries.lookup key = some node) (hload : load node = .ok value)
    (hnext : next value = result) :
    (childNode (some (.map entries)) key >>= fun child =>
      whenDefined child fallback load >>= next) = result := by
  show (whenDefined (entries.lookup key) fallback load >>= next) = result
  rw [hentry]
  show (load node >>= next) = result
  rw [hload]
  exact hnext

/-- The last section of a chain. -/
theorem section_eq {node : YamlNode} {load : YamlNode → Except String α} {result : Except String α}
    (hentry : entries.lookup key = some node) (hload : load node = result) :
    (childNode (some (.map entries)) key >>= fun child => whenDefined child fallback load) =
      result := by
  show whenDefined (entries.lookup key) fallback load = result
  rw [hentry]
  exact hload

/-- A section that is missing leaves what there was. -/
theorem section_missing_bind {load : YamlNode → Except String α}
    (hentry : entries.lookup key = none) (hnext : next fallback = result) :
    (childNode (some (.map entries)) key >>= fun child =>
      whenDefined child fallback load >>= next) = result := by
  show (whenDefined (entries.lookup key) fallback load >>= next) = result
  rw [hentry]
  exact hnext

end Reads

/-! ### Entries that may be left out -/

@[simp]
theorem lookup_entryIf (condition : Bool) (other key : String) (value : YamlNode) :
    (entryIf condition other value).lookup key =
      if key == other then if condition then some value else none else none := by
  cases condition with
  | false => exact (ite_self _).symm
  | true =>
    cases hkey : key == other with
    | false => simp only [entryIf, if_true, List.lookup_cons, hkey, List.lookup_nil,
        Bool.false_eq_true, if_false]
    | true => simp only [entryIf, if_true, List.lookup_cons, hkey]

/-- A budget comes back if it is written, and is then set by the user. -/
theorem readPerformance_bind {α β : Type} [YamlValue α] {entries : List (String × YamlNode)}
    {key : String} {value fallback : α} {written explicitOverride : Bool}
    {next : α × Bool → Except String β} {result : Except String β}
    (hentry : entries.lookup key = if written then some (yaml value) else none)
    (hnext : next (if written then value else fallback, written || explicitOverride) = result) :
    (readPerformance (some (.map entries)) key fallback explicitOverride >>= next) = result := by
  have hscalar : hasScalar (some (.map entries)) key = .ok written := by
    show Except.ok (entries.lookup key).isSome = _
    rw [hentry]
    cases written <;> rfl
  have hread : readPerformance (some (.map entries)) key fallback explicitOverride =
      .ok (if written then value else fallback, written || explicitOverride) := by
    show (hasScalar (some (.map entries)) key >>= _) = _
    rw [hscalar]
    cases written with
    | false => rfl
    | true => exact read_bind hentry rfl
  rw [hread]
  exact hnext

end ProtoScope.Config
