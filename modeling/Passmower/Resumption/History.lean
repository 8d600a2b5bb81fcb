import Mathlib.Data.List.Basic

/-! Histories: what has come about, the last first. One event follows another if it came about later. -/
namespace Resumption

section History
variable {α : Type} {history : List α} {event first last : α}

def Follows (history : List α) (first last : α) : Prop := ∃ later earlier, history = later ++ first :: earlier ∧ last ∈ later

theorem followsCons : Follows (event :: history) first last ↔ (event = last ∧ first ∈ history) ∨ Follows history first last := by
  constructor
  · rintro ⟨later,earlier,same,inside⟩
    cases later with
    | nil => cases inside
    | cons newest rest =>
        obtain ⟨rfl,before⟩ := List.cons.inj same
        rcases List.mem_cons.mp inside with rfl | inside
        · exact .inl ⟨rfl,before ▸ List.mem_append_right _ (List.mem_cons_self ..)⟩
        · exact .inr ⟨rest,earlier,before,inside⟩
  · rintro (⟨rfl,inside⟩ | ⟨later,earlier,same,inside⟩)
    · obtain ⟨later,earlier,same⟩ := List.append_of_mem inside
      exact ⟨event :: later,earlier,by rw [same]; rfl,List.mem_cons_self ..⟩
    · exact ⟨event :: later,earlier,by rw [same]; rfl,List.mem_cons_of_mem _ inside⟩

theorem followsBoth (follows : Follows history first last) : first ∈ history ∧ last ∈ history := by
  obtain ⟨later,earlier,rfl,inside⟩ := follows
  exact ⟨List.mem_append_right _ (List.mem_cons_self ..),List.mem_append_left _ inside⟩

variable {allowed allowed' : List α → α → Prop}

def Lawful (allowed : List α → α → Prop) : List α → Prop
  | [] => True
  | event :: earlier => allowed earlier event ∧ Lawful allowed earlier

theorem lawfulAt {later earlier : List α} (lawful : Lawful allowed history) (parted : history = later ++ event :: earlier) :
    allowed earlier event := by
  induction later generalizing history with
  | nil =>
      subst parted
      exact lawful.1
  | cons newest rest ih =>
      subst parted
      exact ih lawful.2 rfl

theorem lawfulMember (lawful : Lawful allowed history) (inside : event ∈ history) :
    ∃ later earlier, history = later ++ event :: earlier ∧ allowed earlier event := by
  obtain ⟨later,earlier,parted⟩ := List.append_of_mem inside
  exact ⟨later,earlier,parted,lawfulAt lawful parted⟩

theorem lawfulMono (lawful : Lawful allowed history) (weaker : ∀ earlier event, allowed earlier event → allowed' earlier event) :
    Lawful allowed' history := by
  induction history with
  | nil => trivial
  | cons event earlier ih => exact ⟨weaker _ _ lawful.1,ih lawful.2⟩

end History
end Resumption
