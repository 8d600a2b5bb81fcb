import Passmower.JavaScript
import Mathlib.Data.List.Nodup

/-! A `Map` of items under their keys that is built anew from what was kept of it and from the items of other sources:
when the next round gives the same items in the same order, and that the round after it does. -/
namespace JavaScript

section Maps
variable {κ ν : Type} [DecidableEq κ] {key : ν → κ} {items others : List ν} {k : κ}

/- `new Map(items.map(item => [key(item), item]))`, and the keys in their order. -/
def mapOf (key : ν → κ) (items : List ν) : List (κ × ν) :=
  items.foldl (fun entries item => mapSet (key item) item entries) []

def keysOf (key : ν → κ) (items : List ν) : List κ := (mapOf key items).map Prod.fst

def lastUnder (key : ν → κ) (k : κ) (items : List ν) : Option ν := items.reverse.find? (fun item => key item = k)

theorem uniqueByMap : uniqueBy key items = (mapOf key items).map Prod.snd := rfl

theorem lastAppend : lastUnder key k (items ++ others) = (lastUnder key k others).or (lastUnder key k items) := by
  simp [lastUnder]

theorem lastSome {item : ν} (found : lastUnder key k items = some item) : item ∈ items ∧ key item = k :=
  ⟨List.mem_reverse.mp (List.mem_of_find?_eq_some found),by simpa using List.find?_some found⟩

theorem lastFound (inside : k ∈ items.map key) : ∃ item, lastUnder key k items = some item := by
  obtain ⟨item,listed,same⟩ := List.mem_map.mp inside
  cases found : lastUnder key k items with
  | some last => exact ⟨last,rfl⟩
  | none =>
      have none := List.find?_eq_none.mp found item (List.mem_reverse.mpr listed)
      simp [same] at none

theorem foldKeys (start : List (κ × ν)) :
    (items.foldl (fun entries item => mapSet (key item) item entries) start).map Prod.fst =
      start.map Prod.fst ++ (keysOf key items).filter (· ∉ start.map Prod.fst) := by
  induction items generalizing start with
  | nil => simp [keysOf,mapOf]
  | cons item rest ih =>
      have first : keysOf key (item :: rest) = key item :: (keysOf key rest).filter (· ∉ [key item]) := by
        simpa [keysOf,mapOf,mapSet] using ih [(key item,item)]
      rw [List.foldl_cons,ih,first,mapSetKeys]
      split
      · rename_i known
        rw [List.filter_cons_of_neg (by simpa using known),List.filter_filter]
        congr 1
        refine List.filter_congr fun other _ => ?_
        by_cases same : other = key item
        · simp [same,known]
        · simp [same]
      · rename_i fresh
        rw [List.filter_cons_of_pos (by simpa using fresh),List.filter_filter,List.append_assoc,List.singleton_append]
        congr 2
        refine List.filter_congr fun other _ => ?_
        rw [Bool.eq_iff_iff]
        simp [and_comm]

theorem keysAppend : keysOf key (items ++ others) =
    keysOf key items ++ (keysOf key others).filter (· ∉ keysOf key items) := by
  rw [keysOf,mapOf,List.foldl_append,foldKeys]
  rfl

theorem keysCons (item : ν) (rest : List ν) :
    keysOf key (item :: rest) = key item :: (keysOf key rest).filter (· ≠ key item) := by
  have first : keysOf key ([item] ++ rest) = _ := keysAppend
  simpa [keysOf,mapOf,mapSet] using first

theorem keysMember : k ∈ keysOf key items ↔ k ∈ items.map key := by
  induction items with
  | nil => simp [keysOf,mapOf]
  | cons item rest ih =>
      by_cases same : k = key item
      · simp [keysCons,same]
      · simp only [keysCons,List.mem_cons,List.mem_filter,List.map_cons,ih]
        simp [same]

theorem keysFilter (q : κ → Bool) : keysOf key (items.filter fun item => q (key item)) = (keysOf key items).filter q := by
  induction items with
  | nil => rfl
  | cons item rest ih =>
      by_cases taken : q (key item) = true
      · have here : (item :: rest).filter (fun item => q (key item)) = item :: rest.filter (fun item => q (key item)) :=
          List.filter_cons_of_pos taken
        rw [here,keysCons,keysCons,List.filter_cons_of_pos taken,ih,List.filter_filter,List.filter_filter]
        congr 1
        exact List.filter_congr fun k _ => Bool.and_comm _ _
      · have here : (item :: rest).filter (fun item => q (key item)) = rest.filter (fun item => q (key item)) :=
          List.filter_cons_of_neg taken
        rw [here,keysCons,List.filter_cons_of_neg taken,ih,List.filter_filter]
        refine List.filter_congr fun k _ => ?_
        by_cases same : k = key item
        · simp [same,taken]
        · simp [same]

theorem keysDistinct (distinct : (items.map key).Nodup) : keysOf key items = items.map key := by
  induction items with
  | nil => rfl
  | cons item rest ih =>
      obtain ⟨fresh,distinct⟩ := List.nodup_cons.mp distinct
      rw [keysCons,ih distinct,List.map_cons]
      congr 1
      refine List.filter_eq_self.mpr fun k inside => ?_
      simpa using fun same : k = key item => fresh (same ▸ inside)

theorem mapUnique : ((mapOf key items).map Prod.fst).Nodup := by
  have folded : ∀ start : List (κ × ν), (start.map Prod.fst).Nodup →
      ((items.foldl (fun entries item => mapSet (key item) item entries) start).map Prod.fst).Nodup := by
    induction items with
    | nil => exact fun start unique => unique
    | cons item rest ih => exact fun start unique => ih _ (mapSetUnique unique)
  exact folded [] List.nodup_nil

theorem keysNodup : (keysOf key items).Nodup := mapUnique

theorem mapFound : mapGet k (mapOf key items) = lastUnder key k items := by
  have folded : ∀ start : List (κ × ν),
      mapGet k (items.foldl (fun entries item => mapSet (key item) item entries) start) =
        (lastUnder key k items).or (mapGet k start) := by
    induction items with
    | nil => exact fun start => rfl
    | cons item rest ih =>
        intro start
        have split : lastUnder key k ([item] ++ rest) = (lastUnder key k rest).or (lastUnder key k [item]) := lastAppend
        rw [List.singleton_append] at split
        rw [List.foldl_cons,ih,mapGetSet,split,Option.or_assoc]
        by_cases here : key item = k
        · simp [lastUnder,here]
        · simp [lastUnder,here]
  rw [mapOf,folded]
  simp [mapGet]

theorem mapEntry {entry : κ × ν} (inside : entry ∈ mapOf key items) : lastUnder key entry.1 items = some entry.2 := by
  rw [← mapFound]
  exact mapGetOf mapUnique inside

theorem valuesKeys : (uniqueBy key items).map key = keysOf key items := by
  rw [uniqueByMap,List.map_map,keysOf]
  exact List.map_congr_left fun entry inside => (lastSome (mapEntry inside)).2

theorem uniqueLast {item : ν} (inside : item ∈ uniqueBy key items) : lastUnder key (key item) items = some item := by
  obtain ⟨entry,listed,rfl⟩ := List.mem_map.mp inside
  have last := mapEntry listed
  rwa [← (lastSome last).2] at last

theorem uniqueByKeys : uniqueBy key items = (keysOf key items).filterMap (fun k => lastUnder key k items) := by
  rw [uniqueByMap,keysOf,List.filterMap_map]
  have same : (mapOf key items).filterMap (fun entry => lastUnder key entry.1 items) =
      (mapOf key items).filterMap (fun entry => some entry.2) :=
    List.filterMap_congr fun entry inside => mapEntry inside
  rw [List.filterMap_eq_map'] at same
  exact same.symm

theorem uniqueBySame (last : ∀ k, lastUnder key k items = lastUnder key k others) :
    uniqueBy key items = uniqueBy key others ↔ keysOf key items = keysOf key others := by
  constructor
  · intro same
    rw [← valuesKeys,same,valuesKeys]
  · intro same
    rw [uniqueByKeys,uniqueByKeys,same]
    exact List.filterMap_congr fun k _ => last k

theorem uniqueByMapped {μ : Type} {key' : μ → κ} {f : ν → μ} (same : ∀ item, key' (f item) = key item) :
    uniqueBy key' (items.map f) = (uniqueBy key items).map f := by
  have setMapped (k : κ) (item : ν) (entries : List (κ × ν)) :
      mapSet k (f item) (entries.map (Prod.map id f)) = (mapSet k item entries).map (Prod.map id f) := by
    induction entries with
    | nil => rfl
    | cons head rest ih =>
        by_cases here : head.1 = k
        · simp [mapSet,here]
        · simp [mapSet,here,ih]
  have folded : ∀ start : List (κ × ν),
      (items.map f).foldl (fun entries item => mapSet (key' item) item entries) (start.map (Prod.map id f)) =
        (items.foldl (fun entries item => mapSet (key item) item entries) start).map (Prod.map id f) := by
    induction items with
    | nil => exact fun start => rfl
    | cons item rest ih =>
        intro start
        rw [List.map_cons,List.foldl_cons,List.foldl_cons,same,setMapped]
        exact ih _
  have start := folded []
  rw [uniqueByMap,uniqueByMap,mapOf,mapOf,List.map_map]
  rw [List.map_nil] at start
  rw [start,List.map_map]
  rfl

theorem lastFilter {q : κ → Bool} (taken : q k = true) :
    lastUnder key k (items.filter fun item => q (key item)) = lastUnder key k items := by
  unfold lastUnder
  rw [← List.filter_reverse,List.find?_filter]
  congr 1
  funext item
  by_cases same : key item = k
  · simp [same,taken]
  · simp [same]

theorem uniqueFilter (q : κ → Bool) : (uniqueBy key items).filter (fun item => q (key item)) =
    uniqueBy key (items.filter fun item => q (key item)) := by
  rw [uniqueByKeys,uniqueByKeys,keysFilter,List.filter_filterMap,List.filterMap_filter]
  refine List.filterMap_congr fun k _ => ?_
  cases taken : q k with
  | true =>
      rw [lastFilter taken,if_pos rfl]
      cases found : lastUnder key k items with
      | none => rfl
      | some item => simp [(lastSome found).2,taken]
  | false =>
      cases found : lastUnder key k items with
      | none => rfl
      | some item => simp [(lastSome found).2,taken]

@[simp] theorem keysUnique : keysOf key (uniqueBy key items) = keysOf key items := by
  have distinct : ((uniqueBy key items).map key).Nodup := by
    rw [valuesKeys]
    exact keysNodup
  rw [keysDistinct distinct,valuesKeys]

@[simp] theorem lastUnique : lastUnder key k (uniqueBy key items) = lastUnder key k items := by
  cases found : lastUnder key k (uniqueBy key items) with
  | some item =>
      obtain ⟨inside,rfl⟩ := lastSome found
      exact (uniqueLast inside).symm
  | none =>
      cases other : lastUnder key k items with
      | none => rfl
      | some item =>
          obtain ⟨listed,same⟩ := lastSome other
          have inside : k ∈ (uniqueBy key items).map key := by
            rw [valuesKeys,keysMember]
            exact List.mem_map.mpr ⟨item,listed,same⟩
          obtain ⟨_,last⟩ := lastFound inside
          cases found.symm.trans last

end Maps

section Rounds
variable {κ ν : Type} [DecidableEq κ] {key : ν → κ} {own others : List ν} {p : ν → Bool}

/- What both lists have comes last in the one and first in the other, in one order. -/
def SharedLast (mine theirs : List κ) : Prop :=
  ∃ alone shared rest, mine = alone ++ shared ∧ theirs = shared ++ rest ∧ alone.Disjoint theirs

theorem sharedLast {mine theirs : List κ} (distinct : theirs.Nodup) :
    mine ++ theirs.filter (· ∉ mine) = mine.filter (· ∉ theirs) ++ theirs ↔ SharedLast mine theirs := by
  constructor
  · intro same
    have apart : (mine.filter (· ∉ theirs)).Disjoint theirs := fun k inside => by simpa using (List.mem_filter.mp inside).2
    rcases List.append_eq_append_iff.mp same with ⟨more,longer,first⟩ | ⟨shared,split,first⟩
    · have short : more = [] := by
        have fits := List.length_filter_le (fun k => decide (k ∉ theirs)) mine
        rw [longer,List.length_append] at fits
        exact List.length_eq_zero_iff.mp (by omega)
      rw [short,List.append_nil] at longer
      exact ⟨mine,[],theirs,(List.append_nil _).symm,rfl,longer ▸ apart⟩
    · exact ⟨_,shared,_,split,first,apart⟩
  · rintro ⟨alone,shared,rest,rfl,rfl,apart⟩
    have kept : (alone ++ shared).filter (· ∉ shared ++ rest) = alone := by
      rw [List.filter_append,List.filter_eq_self.mpr fun k inside => by simpa using apart inside]
      rw [List.filter_eq_nil_iff.mpr fun k inside => by simp [inside],List.append_nil]
    have later : (shared ++ rest).filter (· ∉ alone ++ shared) = rest := by
      rw [List.filter_append,List.filter_eq_nil_iff.mpr fun k inside => by simp [inside],List.nil_append]
      refine List.filter_eq_self.mpr fun k inside => ?_
      have first : k ∉ alone := fun here => apart here (List.mem_append_right _ inside)
      have second : k ∉ shared := fun here => (List.nodup_append.mp distinct).2.2 k here k inside rfl
      simp [first,second]
    rw [kept,later,List.append_assoc]

variable (mine : ∀ item ∈ own, p item = true) (theirs : ∀ item ∈ others, p item = false)

include mine theirs

theorem keptItems : (uniqueBy key (own ++ others)).filter p =
    uniqueBy key (own.filter fun item => key item ∉ keysOf key others) := by
  have last (k : κ) (inside : k ∈ keysOf key others) :
      ∃ item ∈ others, lastUnder key k (own ++ others) = some item := by
    obtain ⟨item,found⟩ := lastFound (keysMember.mp inside)
    exact ⟨item,(lastSome found).1,by rw [lastAppend,found,Option.some_or]⟩
  have lastOwn (k : κ) (out : k ∉ keysOf key others) : lastUnder key k (own ++ others) = lastUnder key k own := by
    cases found : lastUnder key k others with
    | none => rw [lastAppend,found,Option.none_or]
    | some item =>
        obtain ⟨listed,same⟩ := lastSome found
        exact absurd (keysMember.mpr (List.mem_map.mpr ⟨item,listed,same⟩)) out
  have chosen : ∀ item ∈ uniqueBy key (own ++ others), p item = decide (key item ∉ keysOf key others) := by
    intro item inside
    have here := uniqueLast inside
    by_cases known : key item ∈ keysOf key others
    · obtain ⟨other,listed,found⟩ := last _ known
      cases here.symm.trans found
      simp [theirs item listed,known]
    · rw [lastOwn _ known] at here
      simp [mine item (lastSome here).1,known]
  have none : others.filter (fun item => key item ∉ keysOf key others) = [] :=
    List.filter_eq_nil_iff.mpr fun item inside => by simpa using keysMember.mpr (List.mem_map_of_mem inside)
  rw [List.filter_congr chosen,uniqueFilter (· ∉ keysOf key others),List.filter_append,none,List.append_nil]

theorem keysKept : keysOf key ((uniqueBy key (own ++ others)).filter p) = (keysOf key own).filter (· ∉ keysOf key others) := by
  rw [keptItems mine theirs,keysUnique,keysFilter (· ∉ keysOf key others)]

theorem nextRound : uniqueBy key ((uniqueBy key (own ++ others)).filter p ++ others) = uniqueBy key (own ++ others) ↔
    SharedLast (keysOf key own) (keysOf key others) := by
  have last (k : κ) : lastUnder key k ((uniqueBy key (own ++ others)).filter p ++ others) =
      lastUnder key k (own ++ others) := by
    rw [keptItems mine theirs,lastAppend,lastAppend,lastUnique]
    cases found : lastUnder key k others with
    | some item => rfl
    | none =>
        have out : k ∉ keysOf key others := fun inside => by
          obtain ⟨item,last⟩ := lastFound (keysMember.mp inside)
          cases found.symm.trans last
        rw [lastFilter (q := (· ∉ keysOf key others)) (by simpa using out)]
  have apart : (keysOf key others).filter (· ∉ (keysOf key own).filter (· ∉ keysOf key others)) = keysOf key others :=
    List.filter_eq_self.mpr fun k inside => by simp [inside]
  rw [uniqueBySame last,keysAppend,keysAppend,keysKept mine theirs,apart,← sharedLast keysNodup,eq_comm]

theorem roundAfter : uniqueBy key ((uniqueBy key ((uniqueBy key (own ++ others)).filter p ++ others)).filter p ++ others) =
    uniqueBy key ((uniqueBy key (own ++ others)).filter p ++ others) := by
  have kept : ∀ item ∈ (uniqueBy key (own ++ others)).filter p, p item = true :=
    fun item inside => (List.mem_filter.mp inside).2
  refine (nextRound kept theirs).mpr ⟨_,[],_,(List.append_nil _).symm,rfl,?_⟩
  rw [keysKept mine theirs]
  exact fun k inside => by simpa using (List.mem_filter.mp inside).2

end Rounds
end JavaScript
