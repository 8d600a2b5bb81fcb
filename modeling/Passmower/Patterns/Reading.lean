import Mathlib.Data.List.Basic

/-! Patterns over an alphabet: sets of letters, once or as often as possible, and the end of the text. They are read from a
place of a text with backtracking, the longest repetition first. -/
namespace Patterns
variable {α β : Type}

inductive Term (α : Type) where
  | one (p : α → Bool)
  | many (least : Nat) (p : α → Bool)
  | final

structure Item (α : Type) where
  term : Term α
  group : Bool := false

abbrev Pattern (α : Type) := List (Item α)

def greedy (next : List α → Option β) (p : α → Bool) : Nat → List α → Option (List α × β)
  | least, [] => if least = 0 then (next []).map ([],·) else none
  | least, c :: s =>
      let stopped := if least = 0 then (next (c :: s)).map ([],·) else none
      if p c then
        match greedy next p (least - 1) s with
        | some (taken,b) => some (c :: taken,b)
        | none => stopped
      else stopped

def read : Pattern α → List α → Option (List (List α) × List α)
  | [], s => some ([],s)
  | ⟨.one _,_⟩ :: _, [] => none
  | ⟨.one p,_⟩ :: items, c :: s => if p c then (read items s).map fun (texts,rest) => ([c] :: texts,rest) else none
  | ⟨.many least p,_⟩ :: items, s => (greedy (read items) p least s).map fun (taken,texts,rest) => (taken :: texts,rest)
  | ⟨.final,_⟩ :: items, s => if s.isEmpty then (read items s).map fun (texts,rest) => ([] :: texts,rest) else none

def groups (items : Pattern α) (texts : List (List α)) : List (List α) :=
  ((items.zip texts).filter fun entry => entry.1.group).map Prod.snd

inductive Fits : Term α → List α → List α → Prop where
  | one {p : α → Bool} {c rest} (holds : p c = true) : Fits (.one p) [c] rest
  | many {least p text rest} (enough : least ≤ text.length) (all : ∀ c ∈ text, p c = true) : Fits (.many least p) text rest
  | final {rest} (empty : rest = []) : Fits .final [] rest

inductive Reads : Pattern α → List (List α) → List α → Prop where
  | nil {rest} : Reads [] [] rest
  | cons {item : Item α} {items text texts rest} (fits : Fits item.term text (texts.flatten ++ rest))
      (tail : Reads items texts rest) : Reads (item :: items) (text :: texts) rest

theorem fitsOne {p : α → Bool} {text rest : List α} (fits : Fits (.one p) text rest) : ∃ c, text = [c] ∧ p c = true := by
  cases fits with
  | one holds => exact ⟨_,rfl,holds⟩

theorem fitsMany {least : Nat} {p : α → Bool} {text rest : List α} (fits : Fits (.many least p) text rest) :
    least ≤ text.length ∧ ∀ c ∈ text, p c = true := by
  cases fits with
  | many enough all => exact ⟨enough,all⟩

theorem fitsFinal {text rest : List α} (fits : Fits .final text rest) : text = [] ∧ rest = [] := by
  cases fits with
  | final empty => exact ⟨rfl,empty⟩

theorem readsNil {texts : List (List α)} {rest : List α} (reads : Reads [] texts rest) : texts = [] := by
  cases reads
  rfl

theorem readsCons {item : Item α} {items : Pattern α} {texts : List (List α)} {rest : List α}
    (reads : Reads (item :: items) texts rest) : ∃ text texts', texts = text :: texts' ∧
      Fits item.term text (texts'.flatten ++ rest) ∧ Reads items texts' rest := by
  cases reads with
  | cons fits tail => exact ⟨_,_,rfl,fits,tail⟩

theorem greedySound {next : List α → Option β} {p : α → Bool} {least : Nat} {s taken : List α} {b : β}
    (found : greedy next p least s = some (taken,b)) :
    ∃ rest, s = taken ++ rest ∧ least ≤ taken.length ∧ (∀ c ∈ taken, p c = true) ∧ next rest = some b := by
  induction s generalizing least taken with
  | nil =>
      simp only [greedy] at found
      split at found <;> try contradiction
      rename_i none
      obtain ⟨b',here,same⟩ := Option.map_eq_some_iff.mp found
      cases same
      exact ⟨[],rfl,by omega,nofun,here⟩
  | cons c s ih =>
      have stops (stopped : (if least = 0 then (next (c :: s)).map ([],·) else none) = some (taken,b)) :
          ∃ rest, c :: s = taken ++ rest ∧ least ≤ taken.length ∧ (∀ c ∈ taken, p c = true) ∧ next rest = some b := by
        split at stopped <;> try contradiction
        obtain ⟨b',here,same⟩ := Option.map_eq_some_iff.mp stopped
        cases same
        exact ⟨c :: s,rfl,by omega,nofun,here⟩
      simp only [greedy] at found
      split at found
      · rename_i holds
        split at found
        · rename_i longer
          cases found
          obtain ⟨rest,rfl,enough,all,here⟩ := ih longer
          refine ⟨rest,rfl,by simp only [List.length_cons]; omega,fun d inside => ?_,here⟩
          rcases List.mem_cons.mp inside with rfl | inside
          · exact holds
          · exact all d inside
        · exact stops found
      · exact stops found

theorem greedyComplete {next : List α → Option β} {p : α → Bool} {least : Nat} {taken rest : List α}
    (enough : least ≤ taken.length) (all : ∀ c ∈ taken, p c = true) (succeeds : next rest ≠ none) :
    greedy next p least (taken ++ rest) ≠ none := by
  induction taken generalizing least with
  | nil =>
      have none : least = 0 := Nat.le_zero.mp enough
      subst none
      have stopped : (if 0 = 0 then (next rest).map (([] : List α),·) else none) ≠ none := by simpa using succeeds
      cases rest with
      | nil => exact stopped
      | cons c s =>
          rw [List.nil_append,greedy]
          split
          · split
            · exact nofun
            · exact stopped
          · exact stopped
  | cons c taken ih =>
      have left : least - 1 ≤ taken.length := by
        simp only [List.length_cons] at enough
        omega
      have longer := ih left fun d inside => all d (List.mem_cons_of_mem c inside)
      simp only [List.cons_append,greedy,all c List.mem_cons_self,if_true]
      split
      · exact nofun
      · rename_i failed
        exact absurd failed longer

theorem greedyLonger {next : List α → Option β} {p : α → Bool} {least : Nat} {s : List α} {b : β}
    (succeeds : ∀ s, next s ≠ none) {taken : List α} (found : greedy next p least s = some (taken,b)) :
    taken = s.takeWhile p := by
  induction s generalizing least taken with
  | nil =>
      obtain ⟨rest,same,-⟩ := greedySound found
      exact (List.append_eq_nil_iff.mp same.symm).1
  | cons c s ih =>
      simp only [greedy] at found
      split at found
      · rename_i holds
        split at found
        · rename_i longer
          cases found
          rw [List.takeWhile_cons_of_pos holds,ih longer]
        · rename_i failed
          split at found <;> try contradiction
          rename_i none
          have longer : greedy next p 0 ([] ++ s) ≠ Option.none := greedyComplete (Nat.le_refl 0) nofun (succeeds s)
          rw [none] at failed
          exact absurd failed longer
      · rename_i fails
        split at found <;> try contradiction
        obtain ⟨b',-,same⟩ := Option.map_eq_some_iff.mp found
        cases same
        rw [List.takeWhile_cons_of_neg fails]

theorem readSound {items : Pattern α} {s : List α} {texts : List (List α)} {rest : List α}
    (found : read items s = some (texts,rest)) : Reads items texts rest ∧ s = texts.flatten ++ rest := by
  induction items generalizing s texts with
  | nil =>
      cases found
      exact ⟨.nil,rfl⟩
  | cons item items ih =>
      obtain ⟨term,group⟩ := item
      cases term with
      | one p =>
          cases s with
          | nil => cases found
          | cons c s =>
              simp only [read] at found
              split at found <;> try contradiction
              rename_i holds
              obtain ⟨⟨tail,after⟩,here,same⟩ := Option.map_eq_some_iff.mp found
              cases same
              obtain ⟨reads,rfl⟩ := ih here
              exact ⟨.cons (.one holds) reads,rfl⟩
      | many least p =>
          obtain ⟨⟨taken,tail,after⟩,here,same⟩ := Option.map_eq_some_iff.mp found
          cases same
          obtain ⟨left,rfl,enough,all,here⟩ := greedySound here
          obtain ⟨reads,rfl⟩ := ih here
          exact ⟨.cons (.many enough all) reads,by simp⟩
      | final =>
          simp only [read] at found
          split at found <;> try contradiction
          rename_i empty
          obtain ⟨⟨tail,after⟩,here,same⟩ := Option.map_eq_some_iff.mp found
          cases same
          obtain ⟨reads,rfl⟩ := ih here
          have empty : tail.flatten ++ after = [] := List.isEmpty_iff.mp empty
          exact ⟨.cons (.final empty) reads,rfl⟩

theorem readComplete {items : Pattern α} {texts : List (List α)} {rest : List α} (reads : Reads items texts rest) :
    read items (texts.flatten ++ rest) ≠ none := by
  induction reads with
  | nil => exact nofun
  | @cons item items text texts rest fits tail ih =>
      obtain ⟨term,group⟩ := item
      cases fits with
      | one holds => simpa [read,holds] using ih
      | many enough all =>
          simpa [read] using greedyComplete enough all ih
      | final empty => simpa [read,empty] using ih

def first : Pattern α → α → Bool
  | [], _ => true
  | ⟨.one p,_⟩ :: _, c => p c
  | ⟨.many 0 p,_⟩ :: items, c => p c || first items c
  | ⟨.many (_ + 1) p,_⟩ :: _, c => p c
  | ⟨.final,_⟩ :: _, _ => false

def Determined : Pattern α → Prop
  | [] => True
  | ⟨.many _ p,_⟩ :: items => (∀ c, p c = true → first items c = false) ∧ Determined items
  | _ :: items => Determined items

theorem readsFirst {items : Pattern α} {texts : List (List α)} {rest s : List α} {c : α} (reads : Reads items texts rest)
    (begins : texts.flatten ++ rest = c :: s) : first items c = true := by
  induction reads with
  | nil => rfl
  | @cons item items text texts rest fits tail ih =>
      obtain ⟨term,group⟩ := item
      cases fits with
      | one holds =>
          cases begins
          exact holds
      | @many least p _ _ enough all =>
          cases text with
          | nil =>
              cases least with
              | zero => exact Bool.or_eq_true_iff.mpr (.inr (ih begins))
              | succ least => cases enough
          | cons d text =>
              obtain ⟨rfl,-⟩ := List.cons.inj begins
              have holds := all d List.mem_cons_self
              cases least with
              | zero => exact Bool.or_eq_true_iff.mpr (.inl holds)
              | succ least => exact holds
      | final empty =>
          rw [List.flatten_cons,List.nil_append,empty] at begins
          cases begins

theorem readsUnique {items : Pattern α} {texts texts' : List (List α)} {rest rest' : List α} (determined : Determined items)
    (reads : Reads items texts rest) (reads' : Reads items texts' rest')
    (same : texts.flatten ++ rest = texts'.flatten ++ rest') : texts = texts' ∧ rest = rest' := by
  induction items generalizing texts texts' with
  | nil =>
      cases reads
      cases reads'
      exact ⟨rfl,same⟩
  | cons item items ih =>
      obtain ⟨term,group⟩ := item
      cases reads with | @cons _ _ text texts _ fits tail =>
      cases reads' with | @cons _ _ text' texts' _ fits' tail' =>
      simp only [List.flatten_cons,List.append_assoc] at same
      cases fits with
      | one holds =>
          cases fits' with | one holds' =>
          obtain ⟨rfl,after⟩ := List.cons.inj same
          obtain ⟨rfl,rfl⟩ := ih determined tail tail' after
          exact ⟨rfl,rfl⟩
      | @many least p _ _ enough all =>
          cases fits' with | many enough' all' =>
          have stops {texts : List (List α)} {rest : List α} (tail : Reads items texts rest) :
              (texts.flatten ++ rest).takeWhile p = [] := by
            cases begins : texts.flatten ++ rest with
            | nil => rfl
            | cons c s =>
                have fails : ¬ p c = true := fun holds => by
                  have starts := readsFirst tail begins
                  rw [determined.1 c holds] at starts
                  cases starts
                exact List.takeWhile_cons_of_neg fails
          have taken := congrArg (List.takeWhile p) same
          rw [List.takeWhile_append_of_pos all,List.takeWhile_append_of_pos all',stops tail,stops tail',
            List.append_nil,List.append_nil] at taken
          subst taken
          obtain ⟨rfl,rfl⟩ := ih determined.2 tail tail' (List.append_cancel_left same)
          exact ⟨rfl,rfl⟩
      | final =>
          cases fits'
          obtain ⟨rfl,rfl⟩ := ih determined tail tail' same
          exact ⟨rfl,rfl⟩

theorem readExactly {items : Pattern α} {texts : List (List α)} {rest : List α} (determined : Determined items)
    (reads : Reads items texts rest) : read items (texts.flatten ++ rest) = some (texts,rest) := by
  cases found : read items (texts.flatten ++ rest) with
  | none => exact absurd found (readComplete reads)
  | some other =>
      obtain ⟨reads',same⟩ := readSound found
      obtain ⟨rfl,rfl⟩ := readsUnique determined reads reads' same
      rfl

theorem readMaximal {items : Pattern α} {least : Nat} {p : α → Bool} {group : Bool} {s rest : List α} {texts : List (List α)}
    (found : read (items ++ [⟨.many least p,group⟩]) s = some (texts,rest)) : rest.takeWhile p = [] := by
  induction items generalizing s texts with
  | nil =>
      obtain ⟨⟨taken,tail,after⟩,here,same⟩ := Option.map_eq_some_iff.mp found
      cases same
      obtain ⟨left,rfl,-,all,ends⟩ := greedySound here
      cases ends
      have longest := greedyLonger (fun _ failed => Option.some_ne_none _ failed) here
      rw [List.takeWhile_append_of_pos all] at longest
      exact List.append_cancel_left (longest.symm.trans (List.append_nil taken).symm)
  | cons item items ih =>
      obtain ⟨term,group⟩ := item
      cases term with
      | one q =>
          cases s with
          | nil => cases found
          | cons c s =>
              simp only [List.cons_append,read] at found
              split at found <;> try contradiction
              obtain ⟨⟨tail,after⟩,here,same⟩ := Option.map_eq_some_iff.mp found
              cases same
              exact ih here
      | many least q =>
          obtain ⟨⟨taken,tail,after⟩,here,same⟩ := Option.map_eq_some_iff.mp found
          obtain ⟨left,-,-,-,here⟩ := greedySound here
          cases same
          exact ih here
      | final =>
          simp only [List.cons_append,read] at found
          split at found <;> try contradiction
          obtain ⟨⟨tail,after⟩,here,same⟩ := Option.map_eq_some_iff.mp found
          cases same
          exact ih here

end Patterns
