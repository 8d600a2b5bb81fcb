import Mathlib
import Passmower.JavaScript
import Passmower.Patterns.Splitting
import Passmower.ScimDirectory

/-! The filters of the SCIM lists: their language, and what is read of it. -/
namespace Passmower
open JavaScript Patterns

structure FilterClause where
  attr : String
  value : String
  deriving DecidableEq, Repr

def isAttributeLetter (c : Char) : Bool := c.isAlphanum || c = '_' || c = '.'

def eitherCase (c : Char) : Term Char := .one fun d => d.toLower = c

/- `/\s+and\s+/i` -/
def conjunction : Pattern Char :=
  [⟨.many 1 isTrimmed,false⟩,⟨eitherCase 'a',false⟩,⟨eitherCase 'n',false⟩,⟨eitherCase 'd',false⟩,⟨.many 1 isTrimmed,false⟩]

/- `/^([\w.]+)\s+eq\s+"([^"]*)"$/i` -/
def clausePattern : Pattern Char :=
  [⟨.many 1 isAttributeLetter,true⟩,⟨.many 1 isTrimmed,false⟩,⟨eitherCase 'e',false⟩,⟨eitherCase 'q',false⟩,
    ⟨.many 1 isTrimmed,false⟩,⟨.one (· = '"'),false⟩,⟨.many 0 (· ≠ '"'),true⟩,⟨.one (· = '"'),false⟩,⟨.final,false⟩]

def invalidFilter (filter : String) : ScimFailure := .scim 400 s!"Unsupported filter {filter}" (some "invalidFilter")

def parseClause (filter : String) (clause : List Char) : Except ScimFailure FilterClause :=
  match read clausePattern clause with
  | none => .error (invalidFilter filter)
  | some (texts,_) =>
      let found := groups clausePattern texts
      .ok ⟨String.ofList (found.getD 0 []),String.ofList (found.getD 1 [])⟩

def parseFilter (filter : Option Json) : Except ScimFailure (List FilterClause) :=
  if isTruthyOr filter then (Patterns.split conjunction (textOf filter).toList).mapM (parseClause (textOf filter)) else .ok []

def Blank (text : List Char) : Prop := text ≠ [] ∧ ∀ c ∈ text, isTrimmed c = true

def Keyword (word : String) (text : List Char) : Prop := text.map Char.toLower = word.toList

inductive RendersClause : FilterClause → List Char → Prop where
  | mk {clause before keyword after} (named : clause.attr ≠ "")
      (letters : ∀ c ∈ clause.attr.toList, isAttributeLetter c = true) (blank : Blank before)
      (keyed : Keyword "eq" keyword) (blank' : Blank after) (unquoted : '"' ∉ clause.value.toList) :
      RendersClause clause
        (clause.attr.toList ++ (before ++ (keyword ++ (after ++ '"' :: (clause.value.toList ++ ['"'])))))

inductive Renders : List FilterClause → List Char → Prop where
  | last {clause text} (here : RendersClause clause text) : Renders [clause] text
  | cons {clause text before keyword after clauses rest} (here : RendersClause clause text) (blank : Blank before)
      (keyed : Keyword "and" keyword) (blank' : Blank after) (tail : Renders clauses rest) :
      Renders (clause :: clauses) (text ++ (before ++ (keyword ++ (after ++ rest))))

def Conjoined (text : List Char) : Prop :=
  ∃ front before keyword after back, text = front ++ (before ++ (keyword ++ (after ++ back))) ∧
    Blank before ∧ Keyword "and" keyword ∧ Blank after

section Results
variable {ε α β : Type} {f : α → Except ε β}

theorem mapMOk {x : α} {xs : List α} {ys : List β} : (x :: xs).mapM f = .ok ys ↔
    ∃ y ys', ys = y :: ys' ∧ f x = .ok y ∧ xs.mapM f = .ok ys' := by
  rw [List.mapM_cons]
  constructor
  · intro read
    cases first : f x with
    | error e =>
        rw [first] at read
        cases read
    | ok y =>
        cases others : xs.mapM f with
        | error e =>
            rw [first,others] at read
            cases read
        | ok ys' =>
            rw [first,others] at read
            cases read
            exact ⟨y,ys',rfl,rfl,rfl⟩
  · rintro ⟨y,ys',rfl,first,others⟩
    rw [first,others]
    rfl

theorem mapMError {xs : List α} {e : ε} (failed : xs.mapM f = .error e) : ∃ x ∈ xs, f x = .error e := by
  induction xs with
  | nil => cases failed
  | cons x xs ih =>
      rw [List.mapM_cons] at failed
      cases first : f x with
      | error e' =>
          rw [first] at failed
          cases failed
          exact ⟨x,List.mem_cons_self,first⟩
      | ok y =>
          cases others : xs.mapM f with
          | error e' =>
              rw [first,others] at failed
              cases failed
              obtain ⟨x',member,here⟩ := ih others
              exact ⟨x',List.mem_cons_of_mem x member,here⟩
          | ok ys' =>
              rw [first,others] at failed
              cases failed

end Results

section Letters
variable {c : Char}

theorem attributeSolid (letter : isAttributeLetter c = true) : isTrimmed c = false := by
  simp only [isAttributeLetter,Char.isAlphanum,Char.isAlpha,Char.isUpper,Char.isLower,Char.isDigit,Bool.or_eq_true,
    Bool.and_eq_true,decide_eq_true_eq,UInt32.le_iff_toNat_le,ge_iff_le] at letter
  change ((((65 ≤ c.toNat ∧ c.toNat ≤ 90) ∨ (97 ≤ c.toNat ∧ c.toNat ≤ 122)) ∨ (48 ≤ c.toNat ∧ c.toNat ≤ 57)) ∨
    c = '_') ∨ c = '.' at letter
  have solid (low : 48 ≤ c.toNat) (high : c.toNat ≤ 122) : isTrimmed c = false := by
    simp only [isTrimmed,List.mem_cons,List.not_mem_nil,or_false,Bool.or_eq_false_iff,Bool.and_eq_false_iff,
      decide_eq_false_iff_not]
    omega
  rcases letter with (((upper | lower) | digit) | rfl) | rfl
  · exact solid (by omega) (by omega)
  · exact solid (by omega) (by omega)
  · exact solid (by omega) (by omega)
  · decide
  · decide

theorem lettersSolid {d : Char} (letter : d ∈ ['a','n','d','e','q']) (same : c.toLower = d) : isTrimmed c = false := by
  cases blank : isTrimmed c with
  | false => rfl
  | true =>
      have kept : c.toLower = c := by
        unfold Char.toLower
        split
        · rename_i upper
          have range : 65 ≤ c.toNat ∧ c.toNat ≤ 90 := by
            simpa [UInt32.le_iff_toNat_le] using upper
          simp only [isTrimmed,List.mem_cons,List.not_mem_nil,or_false,Bool.or_eq_true,Bool.and_eq_true,
            decide_eq_true_eq] at blank
          omega
        · rfl
      rw [kept] at same
      subst same
      simp only [List.mem_cons,List.not_mem_nil,or_false] at letter
      rcases letter with rfl | rfl | rfl | rfl | rfl <;> exact absurd blank (by decide)

end Letters

section Readings
variable {text rest s : List Char} {texts : List (List Char)}

theorem keywordAnd {keyword : List Char} : Keyword "and" keyword ↔
    ∃ a n d : Char, keyword = [a,n,d] ∧ a.toLower = 'a' ∧ n.toLower = 'n' ∧ d.toLower = 'd' := by
  constructor
  · intro keyed
    obtain ⟨a,after,rfl,first,keyed⟩ := List.map_eq_cons_iff.mp keyed
    obtain ⟨n,after,rfl,second,keyed⟩ := List.map_eq_cons_iff.mp keyed
    obtain ⟨d,after,rfl,third,keyed⟩ := List.map_eq_cons_iff.mp keyed
    obtain rfl := List.map_eq_nil_iff.mp keyed
    exact ⟨a,n,d,rfl,first,second,third⟩
  · rintro ⟨a,n,d,rfl,first,second,third⟩
    simp [Keyword,first,second,third]

theorem keywordEq {keyword : List Char} : Keyword "eq" keyword ↔
    ∃ e q : Char, keyword = [e,q] ∧ e.toLower = 'e' ∧ q.toLower = 'q' := by
  constructor
  · intro keyed
    obtain ⟨e,after,rfl,first,keyed⟩ := List.map_eq_cons_iff.mp keyed
    obtain ⟨q,after,rfl,second,keyed⟩ := List.map_eq_cons_iff.mp keyed
    obtain rfl := List.map_eq_nil_iff.mp keyed
    exact ⟨e,q,rfl,first,second⟩
  · rintro ⟨e,q,rfl,first,second⟩
    simp [Keyword,first,second]

theorem blankMany : Blank text ↔ 1 ≤ text.length ∧ ∀ c ∈ text, isTrimmed c = true :=
  and_congr_left' (List.length_pos_iff.symm.trans (by rfl))

theorem conjunctionSound (found : read conjunction s = some (texts,rest)) : ∃ before keyword after,
    texts.flatten = before ++ (keyword ++ after) ∧ Blank before ∧ Keyword "and" keyword ∧ Blank after ∧
      rest.takeWhile isTrimmed = [] := by
  have maximal := @readMaximal _ (conjunction.take 4) 1 isTrimmed false s rest texts found
  obtain ⟨reads,-⟩ := readSound found
  obtain ⟨before,_,rfl,fits₁,reads⟩ := readsCons reads
  obtain ⟨_,_,rfl,fits₂,reads⟩ := readsCons reads
  obtain ⟨_,_,rfl,fits₃,reads⟩ := readsCons reads
  obtain ⟨_,_,rfl,fits₄,reads⟩ := readsCons reads
  obtain ⟨after,_,rfl,fits₅,reads⟩ := readsCons reads
  obtain rfl := readsNil reads
  obtain ⟨a,rfl,first⟩ := fitsOne fits₂
  obtain ⟨n,rfl,second⟩ := fitsOne fits₃
  obtain ⟨d,rfl,third⟩ := fitsOne fits₄
  have keyed := keywordAnd.mpr ⟨a,n,d,rfl,of_decide_eq_true first,of_decide_eq_true second,of_decide_eq_true third⟩
  exact ⟨before,[a,n,d],after,by simp,blankMany.mpr (fitsMany fits₁),keyed,blankMany.mpr (fitsMany fits₅),maximal⟩

theorem conjunctionReads {before keyword after : List Char} (blank : Blank before) (keyed : Keyword "and" keyword)
    (blank' : Blank after) : read conjunction (before ++ (keyword ++ (after ++ rest))) ≠ none := by
  obtain ⟨a,n,d,rfl,first,second,third⟩ := keywordAnd.mp keyed
  obtain ⟨enough,all⟩ := blankMany.mp blank
  obtain ⟨enough',all'⟩ := blankMany.mp blank'
  have reads : Patterns.Reads conjunction [before,[a],[n],[d],after] rest :=
    .cons (.many enough all) (.cons (.one (decide_eq_true first)) (.cons (.one (decide_eq_true second))
      (.cons (.one (decide_eq_true third)) (.cons (.many enough' all') .nil))))
  simpa using readComplete reads

theorem keywordSolid {word : String} {keyword : List Char} (word_of : word = "and" ∨ word = "eq")
    (keyed : Keyword word keyword) (tail : List Char) : (keyword ++ tail).takeWhile isTrimmed = [] := by
  rcases word_of with rfl | rfl
  · obtain ⟨a,n,d,rfl,first,-⟩ := keywordAnd.mp keyed
    exact List.takeWhile_cons_of_neg (by simp [lettersSolid (by decide) first])
  · obtain ⟨e,q,rfl,first,-⟩ := keywordEq.mp keyed
    exact List.takeWhile_cons_of_neg (by simp [lettersSolid (by decide) first])

theorem takeBlank {before : List Char} (blank : Blank before) {tail : List Char} (solid : tail.takeWhile isTrimmed = []) :
    (before ++ tail).takeWhile isTrimmed = before := by
  rw [List.takeWhile_append_of_pos blank.2,solid,List.append_nil]

theorem conjunctionExact {before keyword after : List Char} (blank : Blank before) (keyed : Keyword "and" keyword)
    (blank' : Blank after) (solid : rest.takeWhile isTrimmed = []) : ∃ texts, texts.flatten = before ++ (keyword ++ after) ∧
      read conjunction (before ++ (keyword ++ (after ++ rest))) = some (texts,rest) := by
  cases found : read conjunction (before ++ (keyword ++ (after ++ rest))) with
  | none => exact absurd found (conjunctionReads blank keyed blank')
  | some entry =>
      obtain ⟨texts,rest'⟩ := entry
      obtain ⟨front,word,back,flat,blankFront,keyedWord,blankBack,solid'⟩ := conjunctionSound found
      have same := (readSound found).2
      rw [flat] at same
      simp only [List.append_assoc] at same
      have fronts := congrArg (List.takeWhile isTrimmed) same
      rw [takeBlank blank (keywordSolid (.inl rfl) keyed _),takeBlank blankFront (keywordSolid (.inl rfl) keyedWord _)] at fronts
      subst fronts
      have lengths : keyword.length = word.length := by
        have first := congrArg List.length keyed
        have second := congrArg List.length keyedWord
        rw [List.length_map] at first second
        exact first.trans second.symm
      obtain ⟨rfl,backs⟩ := List.append_inj (List.append_cancel_left same) lengths
      have ends := congrArg (List.takeWhile isTrimmed) backs
      rw [takeBlank blank' solid,takeBlank blankBack solid'] at ends
      subst ends
      obtain rfl := List.append_cancel_left backs
      exact ⟨texts,flat,rfl⟩

theorem conjunctionProper : Proper conjunction := by
  intro s texts rest found none
  obtain ⟨before,keyword,after,flat,blank,-⟩ := conjunctionSound found
  rw [none] at flat
  exact blank.1 (List.append_eq_nil_iff.mp flat.symm).1

theorem clauseDetermined : Determined clausePattern := by
  refine ⟨fun c letter => attributeSolid letter,fun c blank => ?_,fun c blank => ?_,fun c other => ?_,trivial⟩
  · apply decide_eq_false
    intro same
    rw [lettersSolid (by decide) same] at blank
    cases blank
  · apply decide_eq_false
    rintro rfl
    exact absurd blank (by decide)
  · simpa [first] using other

end Readings

section Clauses
variable {filter : String} {clause : FilterClause} {text tail : List Char}

theorem parseRendered (renders : RendersClause clause text) : parseClause filter text = .ok clause := by
  cases renders with | @mk before keyword after named letters blank keyed blank' unquoted =>
  obtain ⟨e,q,rfl,first,second⟩ := keywordEq.mp keyed
  obtain ⟨enough,all⟩ := blankMany.mp blank
  obtain ⟨enough',all'⟩ := blankMany.mp blank'
  have some : 1 ≤ clause.attr.toList.length := List.length_pos_of_ne_nil fun none => named (String.toList_inj.mp none)
  have inside (c : Char) (member : c ∈ clause.value.toList) : decide (c ≠ '"') = true :=
    decide_eq_true fun same => unquoted (same ▸ member)
  have reads : Patterns.Reads clausePattern
      [clause.attr.toList,before,[e],[q],after,['"'],clause.value.toList,['"'],[]] [] :=
    .cons (.many some letters) (.cons (.many enough all) (.cons (.one (decide_eq_true first)) (.cons (.one (decide_eq_true second))
      (.cons (.many enough' all') (.cons (.one rfl) (.cons (.many (Nat.zero_le _) inside) (.cons (.one rfl)
        (.cons (.final rfl) .nil))))))))
  have found := readExactly clauseDetermined reads
  simp only [List.flatten_cons,List.flatten_nil,List.append_nil,List.nil_append,List.cons_append] at found
  simp only [parseClause,List.cons_append,List.nil_append,found]
  simp [groups,clausePattern]

theorem parsedRenders (parsed : parseClause filter text = .ok clause) : RendersClause clause text := by
  unfold parseClause at parsed
  split at parsed
  · cases parsed
  · rename_i texts rest found
    obtain ⟨reads,rfl⟩ := readSound found
    obtain ⟨attr,_,rfl,fits₁,reads⟩ := readsCons reads
    obtain ⟨before,_,rfl,fits₂,reads⟩ := readsCons reads
    obtain ⟨_,_,rfl,fits₃,reads⟩ := readsCons reads
    obtain ⟨_,_,rfl,fits₄,reads⟩ := readsCons reads
    obtain ⟨after,_,rfl,fits₅,reads⟩ := readsCons reads
    obtain ⟨_,_,rfl,fits₆,reads⟩ := readsCons reads
    obtain ⟨value,_,rfl,fits₇,reads⟩ := readsCons reads
    obtain ⟨_,_,rfl,fits₈,reads⟩ := readsCons reads
    obtain ⟨_,_,rfl,fits₉,reads⟩ := readsCons reads
    obtain rfl := readsNil reads
    obtain ⟨some,letters⟩ := fitsMany fits₁
    obtain ⟨e,rfl,first⟩ := fitsOne fits₃
    obtain ⟨q,rfl,second⟩ := fitsOne fits₄
    obtain ⟨_,rfl,quote⟩ := fitsOne fits₆
    obtain ⟨-,inside⟩ := fitsMany fits₇
    obtain ⟨_,rfl,quote'⟩ := fitsOne fits₈
    obtain ⟨rfl,rfl⟩ := fitsFinal fits₉
    obtain rfl := of_decide_eq_true quote
    obtain rfl := of_decide_eq_true quote'
    cases Except.ok.inj parsed
    have unquoted : '"' ∉ (String.ofList value).toList := by
      rw [String.toList_ofList]
      exact fun member => of_decide_eq_true (inside _ member) rfl
    have named : String.ofList attr ≠ "" := by
      intro none
      have none := congrArg String.toList none
      rw [String.toList_ofList] at none
      subst none
      cases some
    have keyed := keywordEq.mpr ⟨e,q,rfl,of_decide_eq_true first,of_decide_eq_true second⟩
    have renders : RendersClause ⟨String.ofList attr,String.ofList value⟩ _ :=
      .mk named (by simpa using letters) (blankMany.mpr (fitsMany fits₂)) keyed (blankMany.mpr (fitsMany fits₅)) unquoted
    simpa [groups,clausePattern] using renders

theorem parseRefused {e : ScimFailure} (refused : parseClause filter text = .error e) : e = invalidFilter filter := by
  unfold parseClause at refused
  split at refused
  · cases refused
    rfl
  · cases refused

def Unled (c d : Char) : Prop := isTrimmed c = true → d.toLower ≠ 'a'

theorem solidUnled {text : List Char} (solid : ∀ c ∈ text, isTrimmed c = false) : text.IsChain Unled := by
  induction text with
  | nil => exact .nil
  | cons c text ih =>
      apply List.isChain_cons.mpr
      refine ⟨fun d _ blank => ?_,ih fun d member => solid d (List.mem_cons_of_mem c member)⟩
      rw [solid c List.mem_cons_self] at blank
      cases blank

theorem blankUnled {text : List Char} (blank : ∀ c ∈ text, isTrimmed c = true) : text.IsChain Unled := by
  induction text with
  | nil => exact .nil
  | cons c text ih =>
      apply List.isChain_cons.mpr
      refine ⟨fun d next _ same => ?_,ih fun d member => blank d (List.mem_cons_of_mem c member)⟩
      have space := blank d (List.mem_cons_of_mem c (List.mem_of_mem_head? next))
      rw [lettersSolid (by decide) same] at space
      cases space

theorem unledAppend {front back : List Char} (first : front.IsChain Unled) (second : back.IsChain Unled)
    (begins : ∀ d ∈ back.head?, d.toLower ≠ 'a') : (front ++ back).IsChain Unled :=
  first.append second fun _ _ d next _ => begins d next

theorem blankBegins {blank : List Char} (spaces : Blank blank) (tail : List Char) :
    ∀ d ∈ (blank ++ tail).head?, d.toLower ≠ 'a' := by
  obtain ⟨some,all⟩ := spaces
  cases blank with
  | nil => exact absurd rfl some
  | cons c blank =>
      intro d next same
      obtain rfl : c = d := Option.some.inj next
      have space := all c List.mem_cons_self
      rw [lettersSolid (by decide) same] at space
      cases space

theorem headUnled {name before keyword after : List Char} (letters : ∀ c ∈ name, isAttributeLetter c = true)
    (blank : Blank before) (keyed : Keyword "eq" keyword) (blank' : Blank after) :
    (name ++ (before ++ (keyword ++ after))).IsChain Unled := by
  obtain ⟨e,q,rfl,first,second⟩ := keywordEq.mp keyed
  have word : ([e,q] ++ after).IsChain Unled := by
    apply unledAppend (solidUnled _) (blankUnled blank'.2)
    · simpa using blankBegins blank' []
    · intro c member
      simp only [List.mem_cons,List.not_mem_nil,or_false] at member
      rcases member with rfl | rfl
      · exact lettersSolid (by decide) first
      · exact lettersSolid (by decide) second
  have spaced : (before ++ ([e,q] ++ after)).IsChain Unled := by
    refine unledAppend (blankUnled blank.2) word fun d next same => ?_
    obtain rfl : e = d := Option.some.inj next
    rw [first] at same
    exact absurd same (by decide)
  exact unledAppend (solidUnled fun c member => attributeSolid (letters c member)) spaced (blankBegins blank _)

theorem unledApart {front before keyword back : List Char} (unled : text.IsChain Unled)
    (same : text = front ++ (before ++ (keyword ++ back))) (blank : Blank before) (keyed : Keyword "and" keyword) : False := by
  obtain ⟨a,n,d,rfl,first,-⟩ := keywordAnd.mp keyed
  rw [same] at unled
  have ends : before.getLast? = some (before.getLast blank.1) := List.getLast?_eq_some_getLast blank.1
  have apart := (List.isChain_append.mp (List.isChain_append.mp unled).2.1).2.2 _ ends a rfl
  exact apart (blank.2 _ (List.getLast_mem blank.1)) first

theorem beforeMark {q : Char} {taken rest body : List Char} (unmarked : q ∉ taken) (same : taken ++ rest = body ++ q :: tail) :
    ∃ back, body = taken ++ back := by
  rcases List.append_eq_append_iff.mp same with ⟨back,rfl,-⟩ | ⟨back,rfl,marked⟩
  · exact ⟨back,rfl⟩
  · cases back with
    | nil => exact ⟨[],by simp⟩
    | cons c back =>
        obtain ⟨rfl,-⟩ := List.cons.inj marked
        exact absurd (by simp) unmarked

theorem lastOfSuffix {q : Char} {front after : List Char} (same : text ++ [q] = front ++ after) (some : after ≠ []) :
    ∃ body, after = body ++ [q] ∧ text = front ++ body := by
  rcases List.append_eq_append_iff.mp same with ⟨back,rfl,ends⟩ | ⟨back,rfl,rfl⟩
  · cases back with
    | nil => exact ⟨[],by simpa using ends.symm,by simp⟩
    | cons c back =>
        have none := (List.cons.inj ends).2
        exact absurd (List.append_eq_nil_iff.mp none.symm).2 some
  · exact ⟨back,rfl,rfl⟩

theorem unquotedConjunction {before keyword after : List Char} (blank : Blank before) (keyed : Keyword "and" keyword)
    (blank' : Blank after) : '"' ∉ before ++ (keyword ++ after) := by
  have spaces {text : List Char} (blank : Blank text) : '"' ∉ text := fun member => absurd (blank.2 _ member) (by decide)
  have word : '"' ∉ keyword := fun member => by
    have inside := List.mem_map_of_mem (f := Char.toLower) member
    rw [keyed] at inside
    exact absurd inside (by decide)
  simp [spaces blank,word,spaces blank']

theorem clauseApart (renders : RendersClause clause text) (whole : ¬ Conjoined clause.value.toList) :
    Apart conjunction text tail := by
  cases renders with | @mk before keyword after named letters blank keyed blank' unquoted =>
  intro front suffix same some
  cases found : read conjunction (suffix ++ tail) with
  | none => rfl
  | some entry =>
      exfalso
      obtain ⟨texts,rest⟩ := entry
      obtain ⟨spaces,word,spaces',flat,blankFront,keyedWord,blankBack,-⟩ := conjunctionSound found
      have unmarked := unquotedConjunction blankFront keyedWord blankBack
      have begins := (readSound found).2
      rw [flat] at begins
      have cut : (clause.attr.toList ++ (before ++ (keyword ++ after)) ++ ['"'] ++ clause.value.toList) ++ ['"'] =
          front ++ suffix := by simpa using same
      obtain ⟨body,rfl,inner⟩ := lastOfSuffix cut some
      obtain ⟨back,rfl⟩ := beforeMark unmarked (by simpa using begins.symm)
      rcases List.append_eq_append_iff.mp inner with ⟨lead,rfl,value⟩ | ⟨lead,head,value⟩
      · exact whole ⟨lead,spaces,word,spaces',back,by simpa using value,blankFront,keyedWord,blankBack⟩
      · by_cases none : lead = []
        · subst none
          exact whole ⟨[],spaces,word,spaces',back,by simpa using value.symm,blankFront,keyedWord,blankBack⟩
        · obtain ⟨body,rfl,begun⟩ := lastOfSuffix head none
          obtain ⟨back',rfl⟩ := beforeMark unmarked (by simpa using value)
          exact unledApart (headUnled letters blank keyed blank') (by simpa using begun) blankFront keyedWord

theorem renderedBegins (renders : RendersClause clause text) (tail : List Char) : (text ++ tail).takeWhile isTrimmed = [] := by
  cases renders with | @mk before keyword after named letters =>
  cases name : clause.attr.toList with
  | nil => exact absurd (String.toList_inj.mp name) named
  | cons c name' =>
      rw [name] at letters
      have solid := attributeSolid (letters c List.mem_cons_self)
      exact List.takeWhile_cons_of_neg (by simp [solid])

theorem rendersBegins {clauses : List FilterClause} (renders : Renders clauses text) : text.takeWhile isTrimmed = [] := by
  cases renders with
  | last here => simpa using renderedBegins here []
  | cons here => exact renderedBegins here _

theorem rendersSplits {clauses : List FilterClause} (renders : Renders clauses text)
    (whole : ∀ clause ∈ clauses, ¬ Conjoined clause.value.toList) :
    ∃ pieces, Splits conjunction pieces text ∧ pieces.mapM (parseClause filter) = .ok clauses := by
  induction renders with
  | @last clause text here =>
      refine ⟨[text],.last (clauseApart here (whole _ List.mem_cons_self)),?_⟩
      exact mapMOk.mpr ⟨clause,[],rfl,parseRendered here,rfl⟩
  | @cons clause text before keyword after clauses rest here blank keyed blank' tail ih =>
      obtain ⟨pieces,splits,parsed⟩ := ih fun clause member => whole clause (List.mem_cons_of_mem _ member)
      obtain ⟨texts,flat,found⟩ := conjunctionExact blank keyed blank' (rendersBegins tail)
      have separated : before ++ (keyword ++ (after ++ rest)) = texts.flatten ++ rest := by simp [flat]
      rw [separated] at found ⊢
      refine ⟨text :: pieces,.cons (clauseApart here (whole _ List.mem_cons_self)) found splits,?_⟩
      exact mapMOk.mpr ⟨clause,clauses,rfl,parseRendered here,parsed⟩

theorem pieceWhole (renders : RendersClause clause text) (apart : Apart conjunction text tail) :
    ¬ Conjoined clause.value.toList := by
  rintro ⟨front,spaces,word,spaces',back,value,blankFront,keyedWord,blankBack⟩
  cases renders with | @mk before keyword after named letters blank keyed blank' unquoted =>
  have inside := apart (clause.attr.toList ++ (before ++ (keyword ++ (after ++ '"' :: front))))
    (spaces ++ (word ++ (spaces' ++ (back ++ ['"'])))) (by simp [value]) (by simp [blankFront.1])
  have reads : read conjunction (spaces ++ (word ++ (spaces' ++ (back ++ '"' :: tail)))) ≠ none :=
    conjunctionReads blankFront keyedWord blankBack
  exact reads (by simpa using inside)

theorem splitsRenders {clauses : List FilterClause} {pieces : List (List Char)} (splits : Splits conjunction pieces text)
    (parsed : pieces.mapM (parseClause filter) = .ok clauses) :
    Renders clauses text ∧ ∀ clause ∈ clauses, ¬ Conjoined clause.value.toList := by
  induction splits generalizing clauses with
  | @last piece apart =>
      obtain ⟨clause,_,rfl,first,none⟩ := mapMOk.mp parsed
      cases none
      have here := parsedRenders first
      refine ⟨.last here,fun other member => ?_⟩
      obtain rfl := List.mem_singleton.mp member
      exact pieceWhole here apart
  | @cons piece texts rest pieces apart here tail ih =>
      obtain ⟨clause,clauses,rfl,first,others⟩ := mapMOk.mp parsed
      have leads := parsedRenders first
      obtain ⟨renders,whole⟩ := ih others
      obtain ⟨before,keyword,after,flat,blank,keyed,blank',-⟩ := conjunctionSound here
      refine ⟨?_,fun other member => ?_⟩
      · rw [flat,List.append_assoc,List.append_assoc]
        exact .cons leads blank keyed blank' renders
      · rcases List.mem_cons.mp member with rfl | member
        · exact pieceWhole leads apart
        · exact whole other member

end Clauses

section Filters
variable {filter : String} {clauses : List FilterClause}

theorem parseFilterText (filter : String) (some : filter ≠ "") : parseFilter (Option.some (.string filter)) =
    (Patterns.split conjunction filter.toList).mapM (parseClause filter) := if_pos (decide_eq_true some)

theorem rendersQuoted {text : List Char} (renders : Renders clauses text) : '"' ∈ text := by
  have quoted {clause : FilterClause} {text : List Char} (here : RendersClause clause text) : '"' ∈ text := by
    cases here
    simp
  cases renders with
  | last here => exact quoted here
  | cons here => exact List.mem_append_left _ (quoted here)

theorem parseFilterOk (filter : String) (some : filter ≠ "") : parseFilter (Option.some (.string filter)) = .ok clauses ↔
    Renders clauses filter.toList ∧ ∀ clause ∈ clauses, ¬ Conjoined clause.value.toList := by
  rw [parseFilterText filter some]
  constructor
  · exact splitsRenders (splitSound conjunctionProper filter.toList)
  · rintro ⟨renders,whole⟩
    obtain ⟨pieces,splits,parsed⟩ : ∃ pieces, Splits conjunction pieces filter.toList ∧
        pieces.mapM (parseClause filter) = .ok clauses := rendersSplits renders whole
    rw [splitExact conjunctionProper splits]
    exact parsed

theorem parseFilterError (filter : String) (some : filter ≠ "")
    (refused : ∀ clauses, parseFilter (Option.some (.string filter)) ≠ .ok clauses) :
    parseFilter (Option.some (.string filter)) = .error (invalidFilter filter) := by
  rw [parseFilterText filter some] at refused ⊢
  cases parsed : (Patterns.split conjunction filter.toList).mapM (parseClause filter) with
  | ok clauses => exact absurd parsed (refused clauses)
  | error e =>
      obtain ⟨piece,-,failed⟩ := mapMError parsed
      rw [parseRefused failed]

end Filters

/- A rendering is read back if none of its values holds a conjunction of its own; what is no rendering is refused. -/
theorem filterLanguage (filter : String) :
    (∀ clauses, Renders clauses filter.toList →
      (parseFilter (some (.string filter)) = .ok clauses ↔ ∀ clause ∈ clauses, ¬ Conjoined clause.value.toList)) ∧
    (filter ≠ "" → (∀ clauses, ¬ Renders clauses filter.toList) →
      parseFilter (some (.string filter)) = .error (invalidFilter filter)) := by
  constructor
  · intro clauses renders
    have some : filter ≠ "" := by
      rintro rfl
      exact absurd (rendersQuoted renders) List.not_mem_nil
    rw [parseFilterOk filter some]
    exact ⟨And.right,fun whole => ⟨renders,whole⟩⟩
  · intro some none
    exact parseFilterError filter some fun clauses parsed => none clauses ((parseFilterOk filter some).mp parsed).1

theorem conjoinedBlank {text : List Char} (conjoined : Conjoined text) : ∃ c ∈ text, isTrimmed c = true := by
  obtain ⟨front,before,keyword,after,back,rfl,⟨some,spaces⟩,-⟩ := conjoined
  obtain ⟨c,member⟩ := List.exists_mem_of_ne_nil before some
  exact ⟨c,by simp [member],spaces c member⟩

theorem oneBlank : Blank [' '] := ⟨by decide,List.all_eq_true.mp (by decide)⟩

theorem aliceRendered : Renders [⟨"userName","alice"⟩] "userName eq \"alice\"".toList :=
  .last (@RendersClause.mk ⟨"userName","alice"⟩ [' '] ['e','q'] [' '] (by decide) (List.all_eq_true.mp (by decide))
    oneBlank rfl oneBlank (by decide))

theorem aliceFiltered : parseFilter (some (.string "userName eq \"alice\"")) = .ok [⟨"userName","alice"⟩] ∧
    parseFilter (some (.string "userName")) = .error (invalidFilter "userName") :=
  ⟨((filterLanguage "userName eq \"alice\"").1 _ aliceRendered).mpr fun clause member conjoined => by
      obtain rfl := List.mem_singleton.mp member
      exact absurd (List.any_eq_true.mpr (conjoinedBlank conjoined)) (by decide),
    (filterLanguage "userName").2 (by decide) fun clauses renders => absurd (rendersQuoted renders) (by decide)⟩

/- The word `and` inside a value. -/
theorem researchRefused : ¬ ∀ (filter : String) (clauses : List FilterClause), Renders clauses filter.toList →
    parseFilter (some (.string filter)) = .ok clauses := by
  intro always
  have renders : Renders [⟨"displayName","Research and Development"⟩] "displayName eq \"Research and Development\"".toList :=
    .last (@RendersClause.mk ⟨"displayName","Research and Development"⟩ [' '] ['e','q'] [' '] (by decide)
      (List.all_eq_true.mp (by decide)) oneBlank rfl oneBlank (by decide))
  have parsed := always _ _ renders
  have refused : (parseFilter (some (.string "displayName eq \"Research and Development\""))).toOption = none := by decide +kernel
  rw [parsed] at refused
  cases refused

end Passmower
