import Mathlib.Data.List.Basic

/-! Append-only ledgers in which every entry is justified by the entries before it. -/
namespace Ledger
variable {ε : Type}

def Justified (J : List ε → ε → Prop) (log : List ε) : Prop :=
  ∀ before entry later, log = before ++ entry :: later → J before entry

theorem justifiedNil (J : List ε → ε → Prop) : Justified J [] := by
  intro before entry later same
  cases before <;> cases same

theorem appendOne {log before later : List ε} {entry new : ε}
    (same : log ++ [new] = before ++ entry :: later) :
    (later = [] ∧ before = log ∧ entry = new) ∨
      ∃ rest, later = rest ++ [new] ∧ log = before ++ entry :: rest := by
  rcases List.eq_nil_or_concat later with rfl | ⟨rest,last,rfl⟩
  · obtain ⟨rfl,one⟩ := List.append_inj' same rfl
    cases one
    exact .inl ⟨rfl,rfl,rfl⟩
  · have shape : before ++ entry :: (rest.concat last) = (before ++ entry :: rest) ++ [last] := by simp
    rw [shape] at same
    obtain ⟨rfl,one⟩ := List.append_inj' same rfl
    cases one
    exact .inr ⟨rest,by simp,rfl⟩

theorem justifiedAppend {J : List ε → ε → Prop} {log : List ε} {entry : ε}
    (justified : Justified J log) (next : J log entry) : Justified J (log ++ [entry]) := by
  intro before old later same
  rcases appendOne same with ⟨_,rfl,rfl⟩ | ⟨rest,_,inside⟩
  · exact next
  · exact justified before old rest inside

def Precedes (log : List ε) (first second : ε) : Prop :=
  ∃ before later, log = before ++ second :: later ∧ first ∈ before

theorem precedesLater {log log' : List ε} {first second : ε} (grown : log <+: log')
    (precedes : Precedes log first second) : Precedes log' first second := by
  obtain ⟨before,later,rfl,inside⟩ := precedes
  obtain ⟨more,rfl⟩ := grown
  exact ⟨before,later ++ more,by simp,inside⟩

theorem precedesLast {log : List ε} {first : ε} (inside : first ∈ log) (second : ε) :
    Precedes (log ++ [second]) first second := ⟨log,[],rfl,inside⟩

theorem precedesFirst {log : List ε} {first second : ε} (precedes : Precedes log first second) :
    first ∈ log := by
  obtain ⟨before,later,rfl,inside⟩ := precedes
  exact List.mem_append_left _ inside

theorem precedesSecond {log : List ε} {first second : ε} (precedes : Precedes log first second) :
    second ∈ log := by
  obtain ⟨before,later,rfl,_⟩ := precedes
  exact List.mem_append_right _ List.mem_cons_self

theorem justifiedMember {J : List ε → ε → Prop} {log : List ε} {entry : ε}
    (justified : Justified J log) (inside : entry ∈ log) :
    ∃ before later, log = before ++ entry :: later ∧ J before entry := by
  obtain ⟨before,later,rfl⟩ := List.append_of_mem inside
  exact ⟨before,later,rfl,justified before entry later rfl⟩

end Ledger
