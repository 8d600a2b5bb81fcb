import Mathlib.Data.List.Basic
import Mathlib.Data.List.Dedup
import Mathlib.Data.List.TakeWhile

/-! The JavaScript values and collections the programs below compute with: JSON values
and objects, `Map` and `Set` with their insertion order, and `String.prototype.trim`. -/
namespace JavaScript

/- A number is kept as the text `String(n)` gives. -/
inductive Json where
  | null
  | bool (value : Bool)
  | number (text : String)
  | string (text : String)
  | array (items : List Json)
  | object (fields : List (String × Json))
  deriving Repr

namespace Json

def string? : Json → Option String
  | .string text => some text
  | _ => none

def bool? : Json → Option Bool
  | .bool value => some value
  | _ => none

def isTruthy : Json → Bool
  | .null => false
  | .bool value => value
  | .number text => text ∉ ["0","-0","NaN"]
  | .string text => text ≠ ""
  | .array _ | .object _ => true

def toText : Json → String
  | .null => "null"
  | .bool value => if value then "true" else "false"
  | .number text => text
  | .string text => text
  | .array items => ",".intercalate (items.attach.map fun item =>
      match item with
      | ⟨.null,_⟩ => ""
      | ⟨value,_⟩ => value.toText)
  | .object _ => "[object Object]"

end Json

/- An object's fields; the first entry under a key is the one that counts. -/
abbrev Object := List (String × Json)

namespace Object

def get (o : Object) (key : String) : Option Json := (o.find? (fun field => field.1 == key)).map Prod.snd

def spread (base extra : Object) : Object := extra ++ base

def delete (o : Object) (key : String) : Object := o.filter (fun field => field.1 != key)

def set (o : Object) (key : String) (value : Json) : Object := (key,value) :: o

end Object

def given : Option Json → Option Json
  | some .null | none => none
  | some value => some value

def textOf : Option Json → String
  | none => "undefined"
  | some (.string text) => text
  | some value => value.toText

def isTruthyOr (value : Option Json) : Bool := (value.map Json.isTruthy).getD false

def items : Json → List Json
  | .array items => items
  | _ => []

def member (value : Option Json) (key : String) : Option Json := match value with
  | some (.object fields) => Object.get fields key
  | _ => none

@[simp] theorem getSpread (base extra : Object) (key : String) :
    (base.spread extra).get key = (extra.get key).or (base.get key) := by
  unfold Object.get Object.spread
  rw [List.find?_append,Option.map_or]

section Collections
variable {κ ν : Type} [DecidableEq κ]

/- `map.set(key, value)`: a key keeps its first place and takes the last value. -/
def mapSet (key : κ) (value : ν) : List (κ × ν) → List (κ × ν)
  | [] => [(key,value)]
  | entry :: rest => if entry.1 = key then (key,value) :: rest else entry :: mapSet key value rest

def mapGet (key : κ) : List (κ × ν) → Option ν
  | [] => none
  | entry :: rest => if entry.1 = key then some entry.2 else mapGet key rest

def uniqueBy (key : ν → κ) (items : List ν) : List ν :=
  (items.foldl (fun entries item => mapSet (key item) item entries) []).map Prod.snd

theorem mapSetMember {key : κ} {value : ν} {entries : List (κ × ν)} {entry : κ × ν}
    (member : entry ∈ mapSet key value entries) : entry = (key,value) ∨ entry ∈ entries := by
  induction entries with
  | nil => exact .inl (List.mem_singleton.mp member)
  | cons head tail ih =>
      simp only [mapSet] at member
      split at member
      · rcases List.mem_cons.mp member with same | inside
        · exact .inl same
        · exact .inr (List.mem_cons_of_mem _ inside)
      · rcases List.mem_cons.mp member with same | inside
        · exact .inr (same ▸ List.mem_cons_self)
        · exact (ih inside).imp id (List.mem_cons_of_mem _)

@[simp] theorem mapGetSet (key key' : κ) (value : ν) (entries : List (κ × ν)) :
    mapGet key (mapSet key' value entries) = if key' = key then some value else mapGet key entries := by
  induction entries with
  | nil => simp [mapSet,mapGet]
  | cons head tail ih =>
      by_cases here : head.1 = key'
      · by_cases same : key' = key
        · simp [mapSet,mapGet,here,same]
        · simp [mapSet,mapGet,here,same]
      · by_cases same : head.1 = key
        · have other : key' ≠ key := fun eq => here (same.trans eq.symm)
          simp [mapSet,mapGet,same,other,other.symm]
        · simp [mapSet,mapGet,here,same,ih]

theorem mapGetMember {key : κ} {value : ν} {entries : List (κ × ν)}
    (found : mapGet key entries = some value) : (key,value) ∈ entries := by
  induction entries with
  | nil => cases found
  | cons head tail ih =>
      simp only [mapGet] at found
      split at found
      · rename_i same
        cases Option.some.inj found
        exact List.mem_cons.mpr (.inl (by rw [← same]))
      · exact List.mem_cons_of_mem _ (ih found)

theorem mapGetOf {key : κ} {value : ν} {entries : List (κ × ν)} (unique : (entries.map Prod.fst).Nodup)
    (member : (key,value) ∈ entries) : mapGet key entries = some value := by
  induction entries with
  | nil => cases member
  | cons head tail ih =>
      obtain ⟨fresh,rest⟩ := List.nodup_cons.mp unique
      rcases List.mem_cons.mp member with rfl | inside
      · simp [mapGet]
      · have other : head.1 ≠ key := fun same =>
          fresh (List.mem_map.mpr ⟨(key,value),inside,same.symm⟩)
        simp only [mapGet,if_neg other]
        exact ih rest inside

section Filtering
variable {key : κ} {value : ν} {entries : List (κ × ν)} {q : κ × ν → Bool}

theorem mapSetFilter (passes : q (key,value) = true) (before : ∀ old, mapGet key entries = some old → q (key,old) = true) :
    (mapSet key value entries).filter q = mapSet key value (entries.filter q) := by
  induction entries with
  | nil => simp [mapSet,passes]
  | cons head rest ih =>
      by_cases here : head.1 = key
      · have old : q head = true := by
          have := before head.2 (by simp [mapGet,here])
          rwa [← here] at this
        simp [mapSet,here,passes,old]
      · have later := ih fun old found => before old (by simpa [mapGet,here] using found)
        by_cases kept : q head = true
        · simp [mapSet,here,kept,later]
        · simp [mapSet,here,kept,later]

theorem mapSetFilterOut (fails : q (key,value) = false) (before : ∀ old, mapGet key entries = some old → q (key,old) = false) :
    (mapSet key value entries).filter q = entries.filter q := by
  induction entries with
  | nil => simp [mapSet,fails]
  | cons head rest ih =>
      by_cases here : head.1 = key
      · have old : q head = false := by
          have := before head.2 (by simp [mapGet,here])
          rwa [← here] at this
        simp [mapSet,here,fails,old]
      · have later := ih fun old found => before old (by simpa [mapGet,here] using found)
        by_cases kept : q head = true
        · simp [mapSet,here,kept,later]
        · simp [mapSet,here,kept,later]

theorem mapGetFilter (unique : (entries.map Prod.fst).Nodup) :
    mapGet key (entries.filter q) = (mapGet key entries).filter (fun value => q (key,value)) := by
  induction entries with
  | nil => rfl
  | cons head rest ih =>
      obtain ⟨fresh,rest'⟩ := List.nodup_cons.mp unique
      have later := ih rest'
      by_cases here : head.1 = key
      · have missing : mapGet key rest = none := by
          cases found : mapGet key rest with
          | none => rfl
          | some old =>
              exact absurd (List.mem_map.mpr ⟨_,mapGetMember found,here.symm⟩) fresh
        subst here
        rw [missing] at later
        cases kept : q head with
        | true => simp [mapGet,kept,Option.filter_some]
        | false => simpa [mapGet,kept,Option.filter_some] using later
      · cases kept : q head with
        | true => simpa [mapGet,kept,here] using later
        | false => simpa [mapGet,kept,here] using later

end Filtering

theorem mapSetKeys (key : κ) (value : ν) (entries : List (κ × ν)) : (mapSet key value entries).map Prod.fst =
    if key ∈ entries.map Prod.fst then entries.map Prod.fst else entries.map Prod.fst ++ [key] := by
  induction entries with
  | nil => simp [mapSet]
  | cons head tail ih =>
      by_cases here : head.1 = key
      · simp [mapSet,here]
      · have other : key ≠ head.1 := fun same => here same.symm
        simp only [mapSet,if_neg here,List.map_cons,ih,List.mem_cons,other,false_or]
        split <;> simp

theorem mapSetUnique {key : κ} {value : ν} {entries : List (κ × ν)} (unique : (entries.map Prod.fst).Nodup) :
    ((mapSet key value entries).map Prod.fst).Nodup := by
  rw [mapSetKeys]
  split
  · exact unique
  · rename_i missing
    exact List.Nodup.append unique (List.nodup_singleton key) (by simpa using missing)

theorem uniqueByMember {key : ν → κ} {items : List ν} {item : ν}
    (member : item ∈ uniqueBy key items) : item ∈ items := by
  have entries : ∀ (rest : List ν) (start : List (κ × ν)) (entry : κ × ν),
      entry ∈ rest.foldl (fun entries item => mapSet (key item) item entries) start →
      entry ∈ start ∨ entry.2 ∈ rest := by
    intro rest
    induction rest with
    | nil => exact fun start entry inside => .inl inside
    | cons head tail ih =>
        intro start entry inside
        rcases ih _ entry inside with first | later
        · rcases mapSetMember first with rfl | old
          · exact .inr List.mem_cons_self
          · exact .inl old
        · exact .inr (List.mem_cons_of_mem _ later)
  obtain ⟨entry,inside,rfl⟩ := List.mem_map.mp member
  rcases entries items [] entry inside with none | inside
  · cases none
  · exact inside

end Collections

def updateFirst {α : Type} (p : α → Bool) (f : α → α) : List α → List α
  | [] => []
  | item :: rest => if p item then f item :: rest else item :: updateFirst p f rest

theorem updateFirstMember {α : Type} {p : α → Bool} {f : α → α} {items : List α} {item : α}
    (member : item ∈ updateFirst p f items) :
    item ∈ items ∨ ∃ old, items.find? p = some old ∧ item = f old := by
  induction items with
  | nil => cases member
  | cons head tail ih =>
      simp only [updateFirst] at member
      split at member
      · rename_i here
        rcases List.mem_cons.mp member with same | inside
        · exact .inr ⟨head,by simp [here],same⟩
        · exact .inl (List.mem_cons_of_mem _ inside)
      · rename_i here
        rcases List.mem_cons.mp member with same | inside
        · exact .inl (List.mem_cons.mpr (.inl same))
        · rcases ih inside with old | ⟨old,found,same⟩
          · exact .inl (List.mem_cons_of_mem _ old)
          · exact .inr ⟨old,by simp [here,found],same⟩

def isTrimmed (c : Char) : Bool :=
  c.toNat ∈ [0x9,0xa,0xb,0xc,0xd,0x20,0xa0,0x1680,0x2028,0x2029,0x202f,0x205f,0x3000,0xfeff] ||
    (0x2000 ≤ c.toNat && c.toNat ≤ 0x200a)

def trim (text : String) : String :=
  String.ofList ((text.toList.dropWhile isTrimmed).reverse.dropWhile isTrimmed).reverse

def split (separator : Char) (text : String) : List String := (text.toList.splitOn separator).map String.ofList

theorem untilSeparator {separator : Char} {a b c d : List Char} (plain : separator ∉ a) (plain' : separator ∉ b)
    (same : a ++ separator :: c = b ++ separator :: d) : a = b ∧ c = d := by
  have first {a c : List Char} (plain : separator ∉ a) : (a ++ separator :: c).takeWhile (· != separator) = a := by
    rw [List.takeWhile_append_of_pos fun d inside => by simpa using fun same : d = separator => plain (same ▸ inside)]
    simp
  have here : a = b := by rw [← first (c := c) plain,same,first plain']
  subst here
  exact ⟨rfl,(List.cons.inj (List.append_cancel_left same)).2⟩

end JavaScript
