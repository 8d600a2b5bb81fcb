import Passmower.ScimGrants
import Passmower.ScimUpdates

/-! Withdrawing a SCIM connection: what a revocation takes from the accounts stays taken, whatever logins, SCIM requests and other
revocations run at the same time and after it. -/
namespace Passmower
open JavaScript Resumption Program

def Withdrawn (uid : String) (s : LinkWorld) : Prop := ∀ entry ∈ s.connections, entry.2.uid = uid → entry.2.disabled = true

def Revoked (uid accountId : String) (s : LinkWorld) : Prop :=
  ∀ entry, s.entry accountId ("scim-" ++ uid) = some entry → entry.active = false ∧ entry.groups = []

def Joins (uid : String) (n : Nat) (s : LinkWorld) : Prop := ∃ providerKey accountId linkClaims connections connection,
  s.operations[n]? = some (.login providerKey accountId linkClaims) ∧ .listed n connections ∈ s.log ∧ connection ∈ connections ∧
    connection.disabled = false ∧ connection.uid = uid ∧ ScimLinkService.matched providerKey linkClaims connection ≠ none

def Enters (uid : String) (n : Nat) (s : LinkWorld) : Prop :=
  ∃ connection, .found n connection ∈ s.log ∧ connection.disabled = false ∧ connection.uid = uid

def LinkOperation.IsApproval (operation : LinkOperation) : Prop := ∃ accountId, operation = .approve accountId

def Concerns (uid : String) (n : Nat) (s : LinkWorld) : Prop :=
  Enters uid n s ∨ Joins uid n s ∨
    ∃ operation, s.operations[n]? = some operation ∧ (operation.Revokes uid ∨ operation.IsApproval)

structure Revoking (uid : String) (s t : LinkWorld) : Prop where
  entries : ∀ accountId, t.entry accountId ("scim-" ++ uid) = s.entry accountId ("scim-" ++ uid) ∨ Revoked uid accountId t
  links : ∀ name record, s.directory.find .subject name = some record → record.connectionUid = uid → t.links name = s.links name

def LinkCovered (uid : String) (s : LinkWorld) : Prop := ∀ accountId, ¬ Revoked uid accountId s →
  ∃ name record, s.directory.find .subject name = some record ∧ record.connectionUid = uid ∧ s.links name = some accountId

section Revoking
variable {uid accountId name key : String} {s t u : LinkWorld} {n k : Nat} {values : ScimProjection}
  {existing current after : Identities} {D : ScimDeltas}

theorem revokedLater (revoking : Revoking uid s t) (revoked : Revoked uid accountId s) : Revoked uid accountId t := by
  rcases revoking.entries accountId with same | gone
  · intro entry held
    exact revoked entry (same ▸ held)
  · exact gone

theorem revokingSame (users : t.users = s.users) (links : t.links = s.links) : Revoking uid s t where
  entries accountId := .inl (by rw [LinkWorld.entry,LinkWorld.entry,users])
  links _ _ _ _ := by rw [links]

theorem revokingTrans (grows : LinkGrows s t) (first : Revoking uid s t) (second : Revoking uid t u) : Revoking uid s u where
  entries accountId := by
    rcases second.entries accountId with same | gone
    · rcases first.entries accountId with before | gone
      · exact .inl (same.trans before)
      · exact .inr (revokedLater second gone)
    · exact .inr gone
  links name record there own := by
    obtain ⟨later,found,mine⟩ := grows.owners .subject name record there
    exact (second.links name later found (mine.trans own)).trans (first.links name record there own)

theorem coveredLater (grows : LinkGrows s t) (revoking : Revoking uid s t) (covered : LinkCovered uid s) : LinkCovered uid t := by
  intro accountId left
  obtain ⟨name,record,there,own,linked⟩ := covered accountId fun revoked => left (revokedLater revoking revoked)
  obtain ⟨later,found,mine⟩ := grows.owners .subject name record there
  exact ⟨name,later,found,mine.trans own,(revoking.links name record there own).trans linked⟩

theorem ledgerCovers {hashScimToken : String → String} (ledger : LinkLedger True hashScimToken s) : LinkCovered uid s := by
  intro accountId left
  have held : (s.entry accountId ("scim-" ++ uid)).isSome := by
    cases entry : s.entry accountId ("scim-" ++ uid) with
    | some held => rfl
    | none => exact absurd (fun held given => by rw [entry] at given; cases given) left
  obtain ⟨m,values,projected⟩ := ledger.entries trivial accountId uid held
  obtain ⟨later,earlier,parted,justified⟩ := lawfulMember ledger.lawful projected
  obtain ⟨i,j,name,record,current,linked,stored,_,same,_⟩ := justified
  have inside : ∀ event ∈ earlier, event ∈ s.log := fun event within => by
    rw [parted]
    exact List.mem_append_right _ (List.mem_cons_of_mem _ within)
  obtain ⟨now,there,own⟩ := ledger.owners j name current (inside _ stored)
  have owner : current.connectionUid = uid := String.append_right_inj _ |>.mp same.symm
  exact ⟨name,now,there,own.trans owner,(ledger.linked name accountId).mpr ⟨i,record,inside _ linked⟩⟩

theorem revokedPatch (emptied : ∀ groups patched, D.groups.apply groups [] [] = some patched → patched = [])
    (revokes : values.active = false ∧ values.groups = [])
    (since : existing.bind (mapGet key) = current.bind (mapGet key) ∨
      ∀ entry, current.bind (mapGet key) = some entry → entry.active = false ∧ entry.groups = [])
    (patched : patchedIdentities D existing key values current = some after) :
    ∀ entry, after.bind (mapGet key) = some entry → entry.active = false ∧ entry.groups = [] := by
  obtain ⟨inactive,empty⟩ := revokes
  unfold patchedIdentities at patched
  split at patched
  · cases Option.some.inj patched
    intro entry held
    simp only [Option.bind_some,mapGet,if_true,Option.some.injEq] at held
    exact held ▸ ⟨inactive,empty⟩
  · rename_i entries
    split at patched
    · obtain ⟨present,rfl,same⟩ := Option.map_eq_some_iff.mp patched
      subst same
      intro entry held
      simp only [Option.bind_some,mapGetSet,if_true,Option.some.injEq] at held
      exact held ▸ ⟨inactive,empty⟩
    · rename_i old was
      split at patched
      · rename_i same
        cases Option.some.inj patched
        intro entry held
        rcases since with unchanged | gone
        · rw [← unchanged,Option.bind_some,was] at held
          cases Option.some.inj held
          exact same ▸ ⟨inactive,empty⟩
        · exact gone entry held
      · simp only [Option.bind_eq_bind,Option.bind_eq_some_iff] at patched
        obtain ⟨present,rfl,entry,here,changed,done,same⟩ := patched
        cases Option.some.inj same
        intro final held
        simp only [Option.bind_some,mapGetSet,if_true,Option.some.injEq] at held
        subst held
        simp only [patchedProjection,Option.bind_eq_bind,Option.bind_eq_some_iff,ObjectPatch.Patching.whole,inactive,empty] at done
        obtain ⟨sub,_,active,wrote,groups,took,whole⟩ := done
        cases Option.some.inj whole
        cases Option.some.inj wrote
        rcases since with unchanged | gone
        · rw [Option.bind_some,Option.bind_some,was,here] at unchanged
          cases Option.some.inj unchanged
          rw [D.groupsExact] at took
          refine ⟨?_,(Option.some.inj took).symm⟩
          dsimp only
          split
          · assumption
          · rfl
        · obtain ⟨off,none⟩ := gone entry here
          rw [none] at took
          refine ⟨?_,emptied _ _ took⟩
          dsimp only
          split
          · exact off
          · rfl

end Revoking

def Begun (first : Nat) (s : LinkWorld) : Prop := first < s.operations.length

def withdrawalContract (uid : String) (first n : Nat) : Contract linkCalls LinkWorld where
  ok s _ := Begun first s →
    Withdrawn uid s ∧ LinkCovered uid s ∧ (n < first → ¬ Concerns uid n s) ∧ (n = first → s.outcome = .applied) ∧
      (.returned first ∈ s.log → ∀ accountId, Revoked uid accountId s)
  rely s t := LinkGrows s t ∧ (Begun first s → Revoking uid s t)
  guarantee s t := LinkGrows s t ∧ t.operations = s.operations ∧ (Begun first s → Revoking uid s t) ∧
    (.returned first ∈ t.log → .returned first ∈ s.log ∨ Begun first t ∧ ∀ accountId, Revoked uid accountId t)

def WithdrawalKnows (uid : String) (first n : Nat) (s : LinkWorld) : LinkCall → Prop
  | .patchUser accountId existing key values => key = "scim-" ++ uid → Begun first s →
      values.active = false ∧ values.groups = [] ∧
        (existing.bind (mapGet key) = s.entry accountId key ∨ Revoked uid accountId s)
  | .resubmit accountId _ specs => Begun first s → Revoked uid accountId s ∧
      ∀ entry, specs.bind (mapGet ("scim-" ++ uid)) = some entry → entry.active = false ∧ entry.groups = []
  | .linkSubject name _ _ => ∃ record, s.directory.find .subject name = some record ∧ record.connectionUid ≠ uid
  | .returned => n = first → Begun first s ∧ ∀ accountId, Revoked uid accountId s
  | _ => True

section Calls
variable {uid accountId name key : String} {s t u : LinkWorld} {first n : Nat} {D : ScimDeltas}

theorem begunLater (grows : LinkGrows s t) (begun : Begun first s) : Begun first t :=
  (List.getElem?_eq_some_iff.mp (grows.operations first _ (List.getElem?_eq_getElem begun))).1

theorem withdrawalTrans (moved : (withdrawalContract uid first n).rely s t) (further : (withdrawalContract uid first n).rely t u) :
    (withdrawalContract uid first n).rely s u :=
  ⟨linkGrowsTrans moved.1 further.1,fun begun =>
    revokingTrans moved.1 (moved.2 begun) (further.2 (begunLater moved.1 begun))⟩

theorem withdrawalStill (s : LinkWorld) : (withdrawalContract uid first n).rely s s :=
  ⟨linkGrowsSelf s,fun _ => revokingSame rfl rfl⟩

theorem projectingEntry {identities : Identities} (other : String) {values : ScimProjection} :
    (s.projecting n accountId key values identities).entry other ("scim-" ++ uid) =
      if other = accountId then identities.bind (mapGet ("scim-" ++ uid)) else s.entry other ("scim-" ++ uid) := by
  simp only [LinkWorld.entry,LinkWorld.projecting]
  split
  · rfl
  · rfl

theorem projectingRevokes (emptied : ∀ groups patched, D.groups.apply groups [] [] = some patched → patched = [])
    {existing current after : Identities} {values : ScimProjection} (there : s.users accountId = some current)
    (revokes : values.active = false ∧ values.groups = [])
    (since : existing.bind (mapGet ("scim-" ++ uid)) = s.entry accountId ("scim-" ++ uid) ∨ Revoked uid accountId s)
    (patched : patchedIdentities D existing ("scim-" ++ uid) values current = some after) :
    Revoked uid accountId (s.projecting n accountId ("scim-" ++ uid) values after) := by
  unfold Revoked at since ⊢
  rw [LinkWorld.entry,there,Option.bind_some] at since
  rw [projectingEntry,if_pos rfl]
  exact revokedPatch emptied revokes since patched

theorem resubmittingRevokes (emptied : ∀ groups patched, D.groups.apply groups [] [] = some patched → patched = [])
    {existing specs current after : Identities} (there : s.users accountId = some current) (revoked : Revoked uid accountId s)
    (submitted : ∀ entry, specs.bind (mapGet ("scim-" ++ uid)) = some entry → entry.active = false ∧ entry.groups = [])
    (patched : patchedSpecs D existing specs current = some after) :
    Revoked uid accountId (s.resubmitting n accountId specs after) := by
  unfold Revoked at revoked ⊢
  rw [LinkWorld.entry,there,Option.bind_some] at revoked
  simp only [LinkWorld.entry,LinkWorld.resubmitting,if_true,Option.bind_some]
  refine patchedSpecsKeeps (fun identities => ∀ entry, identities.bind (mapGet ("scim-" ++ uid)) = some entry →
    entry.active = false ∧ entry.groups = []) revoked submitted ?_ patched
  intro key body before later found earlier done
  by_cases own : "scim-" ++ uid = key
  · subst own
    have revokes : (mergedIdentity (existing.bind (mapGet ("scim-" ++ uid))) body).active = false ∧
        (mergedIdentity (existing.bind (mapGet ("scim-" ++ uid))) body).groups = [] := submitted body found
    exact revokedPatch emptied revokes (.inr earlier) done
  · intro entry held
    rcases patchedOther done own with same | gone
    · exact earlier entry (same ▸ held)
    · rw [gone] at held
      cases held

theorem revokingCall (emptied : ∀ groups patched, D.groups.apply groups [] [] = some patched → patched = []) {c : LinkCall}
    (begun : Begun first s) (knows : WithdrawalKnows uid first n s c) : Revoking uid s (answerLinks D n () c s).2 := by
  have still : Revoking uid s s := revokingSame rfl rfl
  cases c with
  | connection id =>
      simp only [answerLinks]
      split
      · exact revokingSame rfl rfl
      · exact still
  | connections =>
      simp only [answerLinks]
      split
      · exact revokingSame rfl rfl
      · exact still
  | list kind => exact still
  | get kind name => exact still
  | create kind name record =>
      refine serveCases (P := fun _ t => Revoking uid s t) still fun t done => ?_
      obtain ⟨fresh,rfl⟩ := createServed done
      have revoking : Revoking uid s (s.created n kind name record) := by
        refine ⟨fun _ => .inl rfl,fun other before there own => ?_⟩
        simp only [LinkWorld.created]
        split
        · rename_i here
          obtain ⟨rfl,rfl⟩ := here
          rw [fresh] at there
          cases there
        · rfl
      exact ⟨revoking,revoking⟩
  | patch kind name existing identity =>
      refine serveCases (P := fun _ t => Revoking uid s t) still fun t done => ?_
      obtain ⟨before,after,stored,rfl⟩ := patchServed done
      exact ⟨revokingSame rfl rfl,revokingSame rfl rfl⟩
  | linkSubject name resourceVersion accountId =>
      refine serveCases (P := fun _ t => Revoking uid s t) still fun t done => ?_
      obtain ⟨before,stored,_,rfl⟩ := linkServed done
      obtain ⟨record,there,other⟩ := knows
      have revoking : Revoking uid s (s.linking n name accountId before) := by
        refine ⟨fun _ => .inl rfl,fun found held here own => ?_⟩
        simp only [LinkWorld.linking]
        split
        · rename_i same
          subst same
          cases Option.some.inj (here.symm.trans there)
          exact absurd own other
        · rfl
      exact ⟨revoking,revoking⟩
  | findUser accountId => exact still
  | patchUser accountId existing key values =>
      refine serveCases (P := fun _ t => Revoking uid s t) still fun t done => ?_
      obtain ⟨current,after,there,patched,rfl⟩ := projectServed done
      have revoking : Revoking uid s (s.projecting n accountId key values after) := by
        refine ⟨fun other => ?_,fun _ _ _ _ => rfl⟩
        by_cases here : "scim-" ++ uid = key ∧ other = accountId
        · obtain ⟨rfl,rfl⟩ := here
          obtain ⟨inactive,empty,since⟩ := knows rfl begun
          exact .inr (projectingRevokes emptied there ⟨inactive,empty⟩ since patched)
        · unfold Revoked
          rw [projectingEntry]
          by_cases own : other = accountId
          · subst own
            rw [if_pos rfl,LinkWorld.entry,there,Option.bind_some]
            rcases patchedOther patched (fun same => here ⟨same,rfl⟩) with same | gone
            · exact .inl same
            · exact .inr fun entry held => by rw [gone] at held; cases held
          · rw [if_neg own]
            exact .inl rfl
      exact ⟨revoking,revoking⟩
  | resubmit accountId existing specs =>
      refine serveCases (P := fun _ t => Revoking uid s t) still fun t done => ?_
      obtain ⟨current,after,there,patched,rfl⟩ := resubmitServed done
      obtain ⟨revoked,submitted⟩ := knows begun
      have revoking : Revoking uid s (s.resubmitting n accountId specs after) := by
        refine ⟨fun other => ?_,fun _ _ _ _ => rfl⟩
        by_cases own : other = accountId
        · subst own
          exact .inr (resubmittingRevokes emptied there revoked submitted patched)
        · refine .inl ?_
          simp only [LinkWorld.entry,LinkWorld.resubmitting,if_neg own]
      exact ⟨revoking,revoking⟩
  | reconcileUserStatus accountId => exact still
  | now => exact still
  | returned => exact revokingSame rfl rfl

inductive Notes (n : Nat) (s : LinkWorld) : LinkCall → LinkEvent → Prop where
  | found {id : String} {connection : ScimConnectionObject} (here : (id,connection) ∈ s.connections) :
      Notes n s (.connection id) (.found n connection)
  | listed : Notes n s .connections (.listed n (s.connections.map Prod.snd))
  | created (name : String) (record : ScimRecord) : Notes n s (.create .subject name record) (.stored n name record)
  | patched (name : String) (existing identity : ScimIdentity) (record : ScimRecord) :
      Notes n s (.patch .subject name existing identity) (.stored n name record)
  | linked (name accountId : String) (resourceVersion : Nat) (record : ScimRecord) :
      Notes n s (.linkSubject name resourceVersion accountId) (.linked n name accountId record)
  | projected (accountId key : String) (existing : Identities) (values : ScimProjection) :
      Notes n s (.patchUser accountId existing key values) (.projected n accountId key values)
  | resubmitted (accountId : String) (existing specs : Identities) :
      Notes n s (.resubmit accountId existing specs) (.resubmitted n accountId specs)
  | returned : Notes n s .returned (.returned n)

theorem callNotes (D : ScimDeltas) (n : Nat) (c : LinkCall) (s : LinkWorld) : (answerLinks D n () c s).2.log = s.log ∨
    ∃ event, (answerLinks D n () c s).2.log = event :: s.log ∧ Notes n s c event := by
  cases c with
  | connection id =>
      simp only [answerLinks]
      split
      · rename_i connection given
        exact .inr ⟨_,rfl,.found (mapGetMember (readGiven given))⟩
      · exact .inl rfl
  | connections =>
      simp only [answerLinks]
      split
      · rename_i connections given
        cases Option.some.inj (readGiven given)
        exact .inr ⟨_,rfl,.listed⟩
      · exact .inl rfl
  | list kind => exact .inl rfl
  | get kind name => exact .inl rfl
  | create kind name record =>
      refine serveCases (P := fun _ t => t.log = s.log ∨ ∃ event, t.log = event :: s.log ∧ Notes n s _ event) (.inl rfl)
        fun t done => ?_
      obtain ⟨_,rfl⟩ := createServed done
      cases kind with
      | subject => exact ⟨.inr ⟨_,rfl,.created name record⟩,.inr ⟨_,rfl,.created name record⟩⟩
      | group => exact ⟨.inl rfl,.inl rfl⟩
  | patch kind name existing identity =>
      refine serveCases (P := fun _ t => t.log = s.log ∨ ∃ event, t.log = event :: s.log ∧ Notes n s _ event) (.inl rfl)
        fun t done => ?_
      obtain ⟨was,after,_,rfl⟩ := patchServed done
      cases kind with
      | subject => exact ⟨.inr ⟨_,rfl,.patched name existing identity _⟩,.inr ⟨_,rfl,.patched name existing identity _⟩⟩
      | group => exact ⟨.inl rfl,.inl rfl⟩
  | linkSubject name resourceVersion accountId =>
      refine serveCases (P := fun _ t => t.log = s.log ∨ ∃ event, t.log = event :: s.log ∧ Notes n s _ event) (.inl rfl)
        fun t done => ?_
      obtain ⟨was,_,_,rfl⟩ := linkServed done
      exact ⟨.inr ⟨_,rfl,.linked name accountId resourceVersion was⟩,.inr ⟨_,rfl,.linked name accountId resourceVersion was⟩⟩
  | findUser accountId => exact .inl rfl
  | patchUser accountId existing key values =>
      refine serveCases (P := fun _ t => t.log = s.log ∨ ∃ event, t.log = event :: s.log ∧ Notes n s _ event) (.inl rfl)
        fun t done => ?_
      obtain ⟨_,after,_,_,rfl⟩ := projectServed done
      exact ⟨.inr ⟨_,rfl,.projected accountId key existing values⟩,.inr ⟨_,rfl,.projected accountId key existing values⟩⟩
  | resubmit accountId existing specs =>
      refine serveCases (P := fun _ t => t.log = s.log ∨ ∃ event, t.log = event :: s.log ∧ Notes n s _ event) (.inl rfl)
        fun t done => ?_
      obtain ⟨_,after,_,_,rfl⟩ := resubmitServed done
      exact ⟨.inr ⟨_,rfl,.resubmitted accountId existing specs⟩,.inr ⟨_,rfl,.resubmitted accountId existing specs⟩⟩
  | reconcileUserStatus accountId => exact .inl rfl
  | now => exact .inl rfl
  | returned => exact .inr ⟨_,rfl,.returned⟩

theorem returnedCall {c : LinkCall} (noted : .returned first ∈ (answerLinks D n () c s).2.log) :
    .returned first ∈ s.log ∨ (n = first ∧ c = .returned) := by
  rcases callNotes D n c s with same | ⟨event,same,notes⟩
  · exact .inl (same ▸ noted)
  · rw [same] at noted
    rcases List.mem_cons.mp noted with here | before
    · subst here
      cases notes
      exact .inr ⟨rfl,rfl⟩
    · exact .inl before

theorem concernsCall {c : LinkCall} (withdrawn : Withdrawn uid s) {k : Nat} (concerns : Concerns uid k (answerLinks D n () c s).2) :
    Concerns uid k s := by
  have operations := (linkCallGrows D n c s).2
  rcases concerns with ⟨connection,found,enabled,own⟩ | ⟨providerKey,accountId,linkClaims,connections,connection,joins⟩ | revokes
  · refine .inl ⟨connection,?_,enabled,own⟩
    rcases callNotes D n c s with same | ⟨event,same,notes⟩
    · exact same ▸ found
    · rw [same] at found
      rcases List.mem_cons.mp found with here | before
      · subst here
        cases notes with
        | found here => exact absurd (withdrawn _ here own) (by simp [enabled])
      · exact before
  · obtain ⟨asked,listed,among,enabled,own,fits⟩ := joins
    rw [operations] at asked
    refine .inr (.inl ⟨providerKey,accountId,linkClaims,connections,connection,asked,?_,among,enabled,own,fits⟩)
    rcases callNotes D n c s with same | ⟨event,same,notes⟩
    · exact same ▸ listed
    · rw [same] at listed
      rcases List.mem_cons.mp listed with here | before
      · subst here
        cases notes with
        | listed =>
            obtain ⟨entry,inside,rfl⟩ := List.mem_map.mp among
            exact absurd (withdrawn _ inside own) (by simp [enabled])
      · exact before
  · rw [operations] at revokes
    exact .inr (.inr revokes)

end Calls

def Enduring (uid : String) (first : Nat) (F : LinkWorld → Prop) : Prop :=
  ∀ s t, LinkGrows s t → (Begun first s → Revoking uid s t) → F s → F t

section Programs
variable {D : ScimDeltas} {hashScimToken digest : String → String} {uid accountId key : String} {first n : Nat} {s t : LinkWorld}
  {F G : LinkWorld → Prop} {α β : Type} {connection : ScimConnection}

theorem lastingGrowing (growing : LinkGrowing F) : Enduring uid first F := fun s t grows _ => growing s t grows

theorem Enduring.and (one : Enduring uid first F) (other : Enduring uid first G) : Enduring uid first fun s => F s ∧ G s :=
  fun s t grows revoking holds => ⟨one s t grows revoking holds.1,other s t grows revoking holds.2⟩

abbrev Withdraws (D : ScimDeltas) (uid : String) (first n : Nat) (F : LinkWorld → Prop) (p : LinkProgram α)
    (Q : Except ScimFailure α → LinkWorld → Prop) : Prop :=
  Triple (answerLinks D n) (withdrawalContract uid first n) F p Q

variable {Q : Except ScimFailure α → LinkWorld → Prop} {R : Except ScimFailure β → LinkWorld → Prop}

theorem lastingStable (lasting : Enduring uid first F) : Stable (withdrawalContract uid first n) F :=
  fun s t moved => lasting s t moved.1 moved.2

theorem withdrawsPure {a : α} (lasting : Enduring uid first F) (ends : ∀ s, F s → Q (.ok a) s) :
    Withdraws D uid first n F (.pure a) Q := triplePure (lastingStable lasting) ends

theorem withdrawsThrow {e : ScimFailure} (lasting : Enduring uid first F) (ends : ∀ s, F s → Q (.error e) s) :
    Withdraws D uid first n F (.throw e : LinkProgram α) Q := tripleThrow (lastingStable lasting) ends

theorem withdrawsBind {p : LinkProgram α} {f : α → LinkProgram β} (lasting : Enduring uid first F)
    (one : Withdraws D uid first n F p Q) (next : ∀ a, Withdraws D uid first n (fun s => F s ∧ Q (.ok a) s) (f a) R)
    (failed : ∀ e s, R (.error e) s) : Withdraws D uid first n F (p >>= f) R := by
  refine tripleBind withdrawalStill (fun a s => F s ∧ Q (.ok a) s) (fun s holds => ?_) next
  have own : ∀ {a b}, (withdrawalContract uid first n).guarantee a b → (withdrawalContract uid first n).rely a b :=
    fun kept => ⟨kept.1,kept.2.2.1⟩
  have since := soundSince (R := (withdrawalContract uid first n).rely) withdrawalTrans id own (one s holds)
  refine soundMono since fun r t ends => ?_
  cases r with
  | ok a => exact ⟨lasting s t ends.2.1 ends.2.2 holds,ends.1⟩
  | error e => exact failed e t

theorem withdrawsThen {p : LinkProgram α} {f : α → LinkProgram β} (lasting : Enduring uid first F)
    (one : Withdraws D uid first n F p fun _ _ => True) (next : ∀ a, Withdraws D uid first n F (f a) R)
    (failed : ∀ e s, R (.error e) s) : Withdraws D uid first n F (p >>= f) R :=
  withdrawsBind lasting one (fun a => tripleMono (next a) (fun _ holds => holds.1) fun _ _ => id) failed

def Earlier (uid : String) (first n : Nat) (s : LinkWorld) : Prop := n < first ∧ Concerns uid n s

theorem earlierLasts : Enduring uid first (Earlier uid first n) := by
  refine lastingGrowing fun s t grows holds => ⟨holds.1,?_⟩
  rcases holds.2 with ⟨connection,found,rest⟩ | ⟨providerKey,accountId,linkClaims,connections,connection,asked,listed,rest⟩ |
      ⟨operation,asked,revokes⟩
  · exact .inl ⟨connection,grows.log found,rest⟩
  · exact .inr (.inl ⟨providerKey,accountId,linkClaims,connections,connection,grows.operations _ _ asked,grows.log listed,rest⟩)
  · exact .inr (.inr ⟨operation,grows.operations _ _ asked,revokes⟩)

theorem earlierWithdraws (p : LinkProgram α) : Withdraws D uid first n (Earlier uid first n) p fun _ _ => True := by
  induction p with
  | pure a => exact withdrawsPure earlierLasts fun _ _ => trivial
  | throw e => exact withdrawsThrow earlierLasts fun _ _ => trivial
  | call c next ih =>
      intro s holds t moved ok w
      have holds := earlierLasts s t moved.1 moved.2 holds
      obtain ⟨grows,operations⟩ := linkCallGrows D n c t
      have never (begun : Begun first t) : False := (ok begun).2.2.1 holds.1 holds.2
      refine ⟨⟨grows,operations,fun begun => absurd begun never,fun noted => ?_⟩,?_⟩
      · rcases returnedCall noted with before | ⟨same,_⟩
        · exact .inl before
        · exact absurd holds.1 (by omega)
      · exact ih _ _ (earlierLasts t _ grows (fun begun => absurd begun never) holds)

variable (emptied : ∀ groups patched, D.groups.apply groups [] [] = some patched → patched = [])
include emptied

theorem withdrawalCall {c : LinkCall} (knows : WithdrawalKnows uid first n s c) :
    (withdrawalContract uid first n).guarantee s (answerLinks D n () c s).2 := by
  obtain ⟨grows,operations⟩ := linkCallGrows D n c s
  refine ⟨grows,operations,fun begun => revokingCall emptied begun knows,fun noted => ?_⟩
  rcases returnedCall noted with before | ⟨same,rfl⟩
  · exact .inl before
  · exact .inr (knows same)

theorem withdrawsAsk {c : LinkCall} {f : LinkAnswer c → LinkProgram α} (told : LinkAnswer c → LinkWorld → Prop)
    (lasting : Enduring uid first F)
    (knows : ∀ s, F s → (withdrawalContract uid first n).ok s c → WithdrawalKnows uid first n s c)
    (tells : ∀ s, F s → (withdrawalContract uid first n).ok s c → F (answerLinks D n () c s).2 →
      told (answerLinks D n () c s).1 (answerLinks D n () c s).2)
    (next : ∀ a, Withdraws D uid first n (fun s => F s ∧ told a s) (f a) Q) :
    Withdraws D uid first n F (ask (I := linkCalls) c >>= f) Q := by
  refine tripleAsk (fun a s => F s ∧ told a s) (lastingStable lasting) (fun s w holds ok => ?_) next
  have kept := withdrawalCall emptied (knows s holds ok)
  have after := lasting _ _ kept.1 kept.2.2.1 holds
  exact ⟨kept,after,tells s holds ok after⟩

theorem withdrawsCall {c : LinkCall} {f : LinkAnswer c → LinkProgram α} (lasting : Enduring uid first F)
    (knows : ∀ s, F s → WithdrawalKnows uid first n s c) (next : ∀ a, Withdraws D uid first n F (f a) Q) :
    Withdraws D uid first n F (ask (I := linkCalls) c >>= f) Q :=
  withdrawsAsk emptied (fun _ _ => True) lasting (fun s holds _ => knows s holds) (fun _ _ _ _ => trivial) fun a =>
    tripleMono (next a) (fun _ holds => holds.1) fun _ _ => id

theorem updateOtherWithdraws {body : ScimProjection} (lasting : Enduring uid first F) (other : key ≠ "scim-" ++ uid) :
    Withdraws D uid first n F (updateIdentity accountId key body) fun _ _ => True := by
  unfold updateIdentity
  refine withdrawsCall emptied lasting (fun _ _ => trivial) fun found => ?_
  cases found with
  | none => exact withdrawsThrow lasting fun _ _ => trivial
  | some existing =>
      refine withdrawsCall emptied lasting (fun s holds same => absurd same other) fun updated => ?_
      cases updated with
      | none => exact withdrawsThrow lasting fun _ _ => trivial
      | some _ =>
          exact withdrawsCall emptied (f := .pure) lasting (fun _ _ => trivial) fun _ => withdrawsPure lasting fun _ _ => trivial

omit emptied in
theorem otherKey (other : connection.uid ≠ uid) : connection.sourceKey ≠ "scim-" ++ uid :=
  fun same => other (String.append_right_inj _ |>.mp same)

theorem projectOtherWithdraws {identity : ScimIdentity} {linked : Option String} (lasting : Enduring uid first F)
    (other : connection.uid ≠ uid) :
    Withdraws D uid first n F (ScimLinkService.project connection identity linked) fun _ _ => True := by
  cases linked with
  | none => exact withdrawsPure lasting fun _ _ => trivial
  | some accountId =>
      refine withdrawsCall emptied lasting (fun _ _ => trivial) fun found => ?_
      cases found with
      | none => exact withdrawsThrow lasting fun _ _ => trivial
      | some _ => exact updateOtherWithdraws emptied lasting (otherKey other)

theorem carryOtherWithdraws (p : Scim α) (lasting : Enduring uid first F) (other : connection.uid ≠ uid) (memory : Remembered) :
    Withdraws D uid first n F (carry connection memory p) fun _ _ => True := by
  induction p generalizing memory with
  | pure a => exact withdrawsPure lasting fun _ _ => trivial
  | throw e => exact withdrawsThrow lasting fun _ _ => trivial
  | call c next ih => cases c with
      | list kind => exact withdrawsCall emptied (c := .list kind) lasting (fun _ _ => trivial) fun listed => ih _ _
      | get kind name => exact withdrawsCall emptied (c := .get kind name) lasting (fun _ _ => trivial) fun found => ih _ _
      | create kind name record =>
          exact withdrawsCall emptied (c := .create kind name record) lasting (fun _ _ => trivial) fun created => ih _ _
      | patch kind name identity =>
          unfold carry
          cases memory.found with
          | none => exact ih _ _
          | some existing =>
              exact withdrawsCall emptied (c := .patch kind name existing.identity identity) lasting (fun _ _ => trivial)
                fun updated => ih _ _
      | project resource =>
          exact withdrawsThen lasting (projectOtherWithdraws emptied lasting other) (fun _ => ih _ _) fun _ _ => trivial
      | now => exact withdrawsCall emptied (c := .now) lasting (fun _ _ => trivial) fun time => ih _ _

theorem findWithdraws {id : String} (lasting : Enduring uid first F)
    (started : ∀ s, F s → n < s.operations.length) :
    Withdraws D uid first n F (ScimConnectionService.find id) fun r s =>
      ∀ connection, r = .ok connection → connection.uid ≠ uid ∨ Earlier uid first n s := by
  unfold ScimConnectionService.find
  refine withdrawsAsk emptied (c := .connection id) (fun found s => ∀ connection, found = some connection →
    connection.disabled = false → connection.uid ≠ uid ∨ Earlier uid first n s) lasting (fun _ _ _ => trivial)
    (fun s holds ok _ => ?_) fun found => ?_
  · simp only [answerLinks]
    split
    · rename_i connection read
      intro same told enabled
      cases told
      by_cases own : connection.uid = uid
      · right
        by_cases begun : Begun first s
        · have off := (ok begun).1 _ (mapGetMember (readGiven read)) own
          simp only [enabled] at off
          cases off
        · refine ⟨(started s holds).trans_le (Nat.le_of_not_lt begun),.inl ⟨connection,List.mem_cons_self ..,enabled,own⟩⟩
      · exact .inl own
    · intro connection given
      cases given
  · have told : Enduring uid first fun s => ∀ connection, found = some connection → connection.disabled = false →
        connection.uid ≠ uid ∨ Earlier uid first n s :=
      fun s t grows revoking told connection given enabled =>
        (told connection given enabled).imp_right (earlierLasts s t grows revoking)
    cases enabled : found.filter (fun connection => !connection.disabled) with
    | none => exact withdrawsThrow (lasting.and told) fun _ _ _ same => by cases same
    | some connection =>
        refine withdrawsPure (lasting.and told) fun s holds given same => ?_
        cases same
        obtain ⟨here,on⟩ := Option.filter_eq_some_iff.mp enabled
        exact holds.2 connection here (by simpa using on)

omit emptied in
theorem withdrawsEither {p : LinkProgram α} {P : Prop} (apart : P → Withdraws D uid first n F p fun _ _ => True)
    (knows : ∀ s, F s → P ∨ Earlier uid first n s) : Withdraws D uid first n F p fun _ _ => True := by
  intro s holds
  rcases knows s holds with other | earlier
  · exact apart other s holds
  · exact earlierWithdraws p s earlier

theorem routeWithdraws {connectionId authorization : String} {command : ScimCommand} (lasting : Enduring uid first F)
    (started : ∀ s, F s → n < s.operations.length) :
    Withdraws D uid first n F (scimRoute hashScimToken digest connectionId authorization command) fun _ _ => True := by
  unfold scimRoute
  refine withdrawsBind (Q := fun r s => ∀ connection, r = .ok (some connection) → connection.uid ≠ uid ∨ Earlier uid first n s)
    lasting ?_ (fun found => ?_) fun _ _ => trivial
  · refine tripleTryCatch withdrawalStill (fun _ _ => True) ?_ fun e => ?_
    · refine withdrawsBind lasting (findWithdraws emptied lasting started) (fun connection => ?_) fun _ _ => trivial
      have told : Enduring uid first fun s => ∀ other, Except.ok (ε := ScimFailure) connection = .ok other →
          other.uid ≠ uid ∨ Earlier uid first n s :=
        fun s t grows revoking told other same => (told other same).imp_right (earlierLasts s t grows revoking)
      refine withdrawsPure (lasting.and told) fun s holds other same => ?_
      cases same
      exact holds.2 _ rfl
    · have nothing : Enduring uid first fun _ => True := fun _ _ _ _ _ => trivial
      split
      · exact withdrawsPure nothing fun _ _ _ => nofun
      · exact withdrawsThrow nothing fun _ _ _ => nofun
  · have told : Enduring uid first fun s => ∀ connection, Except.ok (ε := ScimFailure) found = .ok (some connection) →
        connection.uid ≠ uid ∨ Earlier uid first n s :=
      fun s t grows revoking told other same => (told other same).imp_right (earlierLasts s t grows revoking)
    cases given : found.filter fun connection =>
        ScimConnectionService.authenticate hashScimToken connection (bearerToken authorization) with
    | none => exact withdrawsPure (lasting.and told) fun _ _ => trivial
    | some connection =>
        have here : found = some connection := (Option.filter_eq_some_iff.mp given).1
        refine withdrawsEither (P := connection.uid ≠ uid) (fun other => ?_) fun s holds => holds.2 connection (by rw [here])
        exact withdrawsThen (lasting.and told) (carryOtherWithdraws emptied _ (lasting.and told) other {})
          (fun _ => withdrawsPure (lasting.and told) fun _ _ => trivial) fun _ _ => trivial

theorem listWithdraws {providerKey : String} {linkClaims : Object} (lasting : Enduring uid first F)
    (asked : ∀ s, F s → s.operations[n]? = some (.login providerKey accountId linkClaims)) :
    Withdraws D uid first n F ScimConnectionService.list fun r s => ∀ connections, r = .ok connections →
      ∀ connection ∈ connections, connection.uid ≠ uid ∨
        ScimLinkService.matched providerKey linkClaims connection = none ∨ Earlier uid first n s := by
  unfold ScimConnectionService.list
  refine withdrawsAsk emptied (c := .connections) (fun connections s => ∀ listed, connections = some listed →
    ∀ connection ∈ listed, connection.disabled = false → connection.uid ≠ uid ∨
      ScimLinkService.matched providerKey linkClaims connection = none ∨ Earlier uid first n s) lasting (fun _ _ _ => trivial)
    (fun s holds ok after => ?_) fun connections => ?_
  · revert after
    simp only [answerLinks]
    split
    · rename_i connections read
      intro after listed told connection inside enabled
      cases told
      by_cases own : connection.uid = uid
      · right
        by_cases fits : ScimLinkService.matched providerKey linkClaims connection = none
        · exact .inl fits
        · right
          by_cases begun : Begun first s
          · cases Option.some.inj (readGiven read)
            obtain ⟨entry,among,rfl⟩ := List.mem_map.mp inside
            have off := (ok begun).1 _ among own
            simp only [enabled] at off
            cases off
          · have started := (List.getElem?_eq_some_iff.mp (asked s holds)).1
            exact ⟨started.trans_le (Nat.le_of_not_lt begun),.inr (.inl ⟨providerKey,accountId,linkClaims,connections,connection,
              asked _ after,List.mem_cons_self ..,inside,enabled,own,fits⟩)⟩
      · exact .inl own
    · intro _ listed given
      cases given
  · have told : Enduring uid first fun s => ∀ listed, connections = some listed → ∀ connection ∈ listed,
        connection.disabled = false → connection.uid ≠ uid ∨
          ScimLinkService.matched providerKey linkClaims connection = none ∨ Earlier uid first n s :=
      fun s t grows revoking told listed given connection inside enabled =>
        (told listed given connection inside enabled).imp_right (Or.imp_right (earlierLasts s t grows revoking))
    refine withdrawsPure (lasting.and told) fun s holds enabled same connection inside => ?_
    cases same
    obtain ⟨inside,on⟩ := List.mem_filter.mp inside
    cases connections with
    | none => cases inside
    | some listed => exact holds.2 listed rfl connection inside (by simpa using on)

theorem listSubjectsWithdraws (lasting : Enduring uid first F) :
    Withdraws D uid first n F (ScimLinkService.listSubjects connection) fun r s => ∀ subjects, r = .ok subjects →
      ∀ subject ∈ subjects, OwnedBy .subject subject.accountId connection.uid s := by
  unfold ScimLinkService.listSubjects
  refine withdrawsAsk emptied (c := .list .subject) (fun resources s => ∀ listed, resources = some listed → ∀ r ∈ listed,
    OwnedBy .subject r.accountId r.connectionUid s) lasting (fun _ _ _ => trivial) (fun s _ _ _ listed given r inside => ?_)
    fun resources => ?_
  · cases Option.some.inj (readGiven given)
    obtain ⟨record,there,same⟩ := Option.map_eq_some_iff.mp (listedResources inside)
    obtain ⟨record',found,rfl⟩ := Option.map_eq_some_iff.mp there
    exact ⟨record',found,by rw [← same]; rfl⟩
  · have told : LinkGrowing fun s => ∀ listed, resources = some listed → ∀ r ∈ listed,
        OwnedBy .subject r.accountId r.connectionUid s :=
      fun s t grows told listed given r inside => growingOwned _ _ _ s t grows (told listed given r inside)
    refine withdrawsPure (lasting.and (lastingGrowing told)) fun s holds subjects same subject inside => ?_
    cases same
    obtain ⟨inside,own⟩ := List.mem_filter.mp inside
    cases resources with
    | none => cases inside
    | some listed => exact of_decide_eq_true own ▸ holds.2 listed rfl subject inside

theorem linkOtherWithdraws {subject : LinkedResource} (lasting : Enduring uid first F)
    (owned : ∀ s, F s → OwnedBy .subject subject.accountId connection.uid s) (other : connection.uid ≠ uid) :
    Withdraws D uid first n F (ScimLinkService.linkUnlessLinked subject accountId) fun _ _ => True := by
  unfold ScimLinkService.linkUnlessLinked
  cases subject.linkedAccountId with
  | none =>
      refine withdrawsCall emptied (c := .linkSubject subject.accountId subject.resourceVersion accountId) lasting
        (fun s holds => ?_) fun updated => ?_
      · obtain ⟨record,there,own⟩ := owned s holds
        exact ⟨record,there,own ▸ other⟩
      · cases updated with
        | none => exact withdrawsThrow lasting fun _ _ => trivial
        | some _ => exact withdrawsPure lasting fun _ _ => trivial
  | some account =>
      dsimp only
      split
      · exact withdrawsThrow lasting fun _ _ => trivial
      · exact withdrawsPure lasting fun _ _ => trivial

theorem linkMatchedWithdraws {connection : ScimConnectionObject} {externalId : String} (lasting : Enduring uid first F)
    (other : connection.uid ≠ uid) :
    Withdraws D uid first n F (ScimLinkService.linkMatched connection accountId externalId) fun _ _ => True := by
  unfold ScimLinkService.linkMatched
  refine withdrawsBind lasting (listSubjectsWithdraws emptied lasting) (fun subjects => ?_) fun _ _ => trivial
  cases found : subjects.find? (·.identity.externalId = some (.string externalId)) with
  | none =>
      refine tripleMono (P := F) (withdrawsPure lasting fun _ _ => trivial) (fun s holds => holds.1) fun _ _ => id
  | some subject =>
      have inside := List.mem_of_find?_eq_some found
      have knowing : Enduring uid first fun s => F s ∧ OwnedBy .subject subject.accountId connection.uid s :=
        lasting.and (lastingGrowing (growingOwned _ _ _))
      refine tripleMono (P := fun s => F s ∧ OwnedBy .subject subject.accountId connection.uid s) ?_
        (fun s holds => ⟨holds.1,holds.2 subjects rfl subject inside⟩) fun _ _ => id
      refine withdrawsThen knowing (linkOtherWithdraws emptied knowing (fun s holds => holds.2) other) (fun updated => ?_)
        fun _ _ => trivial
      exact withdrawsThen knowing (projectOtherWithdraws emptied knowing other)
        (fun _ => withdrawsPure knowing fun _ _ => trivial) fun _ _ => trivial

theorem linkEachWithdraws {providerKey : String} {linkClaims : Object} {rest : List ScimConnectionObject}
    (lasting : Enduring uid first F)
    (knows : ∀ s, F s → ∀ connection ∈ rest, connection.uid ≠ uid ∨
      ScimLinkService.matched providerKey linkClaims connection = none ∨ Earlier uid first n s) :
    Withdraws D uid first n F (ScimLinkService.linkEach providerKey accountId linkClaims rest) fun _ _ => True := by
  induction rest with
  | nil => exact withdrawsPure lasting fun _ _ => trivial
  | cons connection rest ih =>
      unfold ScimLinkService.linkEach
      have one : Withdraws D uid first n F (ScimLinkService.linkConnection providerKey accountId linkClaims connection)
          fun _ _ => True := by
        unfold ScimLinkService.linkConnection
        cases fits : ScimLinkService.matched providerKey linkClaims connection with
        | none => exact withdrawsPure lasting fun _ _ => trivial
        | some externalId =>
            refine withdrawsEither (P := connection.uid ≠ uid) (linkMatchedWithdraws emptied lasting) fun s holds => ?_
            have told := knows s holds connection (List.mem_cons_self ..)
            simpa only [fits,reduceCtorEq,false_or] using told
      refine withdrawsThen lasting one (fun linked => ?_) fun _ _ => trivial
      refine withdrawsThen lasting (ih fun s holds other inside => knows s holds other (List.mem_cons_of_mem _ inside))
        (fun _ => withdrawsPure lasting fun _ _ => trivial) fun _ _ => trivial

theorem linkAccountWithdraws {providerKey : String} {linkClaims : Object} (lasting : Enduring uid first F)
    (asked : ∀ s, F s → s.operations[n]? = some (.login providerKey accountId linkClaims)) :
    Withdraws D uid first n F (ScimLinkService.linkAccount providerKey accountId linkClaims) fun _ _ => True := by
  unfold ScimLinkService.linkAccount
  split
  · exact withdrawsPure lasting fun _ _ => trivial
  · refine withdrawsBind lasting (listWithdraws emptied lasting asked) (fun connections => ?_) fun _ _ => trivial
    have told : Enduring uid first fun s => ∀ connection ∈ connections, connection.uid ≠ uid ∨
        ScimLinkService.matched providerKey linkClaims connection = none ∨ Earlier uid first n s :=
      fun s t grows revoking told connection inside =>
        (told connection inside).imp_right (Or.imp_right (earlierLasts s t grows revoking))
    refine tripleMono (linkEachWithdraws emptied (lasting.and told) fun s holds => holds.2)
      (fun s holds => ⟨holds.1,holds.2 connections rfl⟩) fun _ _ => id

theorem revokeOtherWithdraws {subjects : List LinkedResource} (lasting : Enduring uid first F) (other : connection.uid ≠ uid) :
    Withdraws D uid first n F (ScimLinkService.revokeSubjects connection subjects) fun _ _ => True := by
  induction subjects with
  | nil => exact withdrawsPure lasting fun _ _ => trivial
  | cons subject rest ih =>
      unfold ScimLinkService.revokeSubjects
      cases subject.linkedAccountId with
      | none => exact ih
      | some accountId =>
          refine withdrawsCall emptied (c := .findUser accountId) lasting (fun _ _ => trivial) fun found => ?_
          cases found with
          | none => exact ih
          | some _ =>
              exact withdrawsThen lasting (updateOtherWithdraws emptied lasting (otherKey other)) (fun _ => ih) fun _ _ => trivial

theorem updateRevokes {body : ScimProjection} (lasting : Enduring uid first F) (begun : ∀ s, F s → Begun first s)
    (revokes : body.active = false ∧ body.groups = []) :
    Withdraws D uid first n F (updateIdentity accountId ("scim-" ++ uid) body) fun r s =>
      r = .ok () → Revoked uid accountId s := by
  unfold updateIdentity
  refine withdrawsAsk emptied (c := .findUser accountId) (fun found s => ∀ existing, found = some existing →
    existing.bind (mapGet ("scim-" ++ uid)) = s.entry accountId ("scim-" ++ uid) ∨ Revoked uid accountId s) lasting
    (fun _ _ _ => trivial) (fun s _ _ _ existing given => ?_) fun found => ?_
  · have there : s.users accountId = some existing := readGiven given
    exact .inl (by rw [LinkWorld.entry]; simp only [answerLinks,there,Option.bind_some])
  · have told : Enduring uid first fun s => F s ∧ ∀ existing, found = some existing →
        existing.bind (mapGet ("scim-" ++ uid)) = s.entry accountId ("scim-" ++ uid) ∨ Revoked uid accountId s := by
      intro s t grows revoking holds
      refine ⟨lasting s t grows revoking holds.1,fun existing given => ?_⟩
      have since := revoking (begun s holds.1)
      rcases holds.2 existing given with same | gone
      · exact (since.entries accountId).imp_left (same.trans ∘ Eq.symm)
      · exact .inr (revokedLater since gone)
    cases found with
    | none => exact withdrawsThrow told fun _ _ same => by cases same
    | some existing =>
        refine withdrawsAsk emptied (fun updated s => updated = some () → Revoked uid accountId s) told
          (fun s holds _ => ?_) (fun s holds _ _ => ?_) fun updated => ?_
        · exact fun _ _ => ⟨revokes.1,revokes.2,holds.2 existing rfl⟩
        · refine serveCases (P := fun updated t => updated = some () → Revoked uid accountId t)
            (fun same => by cases same) fun t done => ⟨fun same => (by cases same),fun _ => ?_⟩
          obtain ⟨current,after,there,patched,rfl⟩ := projectServed done
          exact projectingRevokes emptied there revokes (holds.2 existing rfl) patched
        · have after : Enduring uid first fun s => (F s ∧ ∀ other, some existing = some other →
              other.bind (mapGet ("scim-" ++ uid)) = s.entry accountId ("scim-" ++ uid) ∨ Revoked uid accountId s) ∧
              (updated = some () → Revoked uid accountId s) := by
            intro s t grows revoking holds
            exact ⟨told s t grows revoking holds.1,fun wrote => revokedLater (revoking (begun s holds.1.1)) (holds.2 wrote)⟩
          cases updated with
          | none => exact withdrawsThrow after fun _ _ same => by cases same
          | some _ =>
              exact withdrawsCall emptied (c := .reconcileUserStatus accountId) (f := .pure) after (fun _ _ => trivial) fun _ =>
                withdrawsPure after fun s holds _ => holds.2 rfl

def Remaining (uid : String) (first n : Nat) (subjects : List LinkedResource) (s : LinkWorld) : Prop :=
  Begun first s ∧ (n = first → ∀ accountId, ¬ Revoked uid accountId s →
    ∃ subject ∈ subjects, subject.linkedAccountId = some accountId)

omit emptied in
theorem remainingLasts (subjects : List LinkedResource) : Enduring uid first (Remaining uid first n subjects) :=
  fun _ _ grows revoking holds => ⟨begunLater grows holds.1,fun same accountId left =>
    holds.2 same accountId fun gone => left (revokedLater (revoking holds.1) gone)⟩

omit emptied in
theorem remainingNext {subject : LinkedResource} {rest : List LinkedResource} (remaining : Remaining uid first n (subject :: rest) s)
    (done : ∀ accountId, subject.linkedAccountId = some accountId → n = first → Revoked uid accountId s) :
    Remaining uid first n rest s := by
  refine ⟨remaining.1,fun same accountId left => ?_⟩
  obtain ⟨other,inside,linked⟩ := remaining.2 same accountId left
  rcases List.mem_cons.mp inside with rfl | inside
  · exact absurd (done accountId linked same) left
  · exact ⟨other,inside,linked⟩

theorem revokeSubjectsWithdraws {subjects : List LinkedResource} (own : connection.uid = uid) :
    Withdraws D uid first n (Remaining uid first n subjects) (ScimLinkService.revokeSubjects connection subjects) fun r s =>
      r = .ok () → n = first → ∀ accountId, Revoked uid accountId s := by
  induction subjects with
  | nil =>
      refine withdrawsPure (remainingLasts []) fun s remaining _ same accountId => ?_
      by_contra left
      obtain ⟨subject,inside,_⟩ := remaining.2 same accountId left
      cases inside
  | cons subject rest ih =>
      unfold ScimLinkService.revokeSubjects
      cases linked : subject.linkedAccountId with
      | none => exact tripleMono ih (fun s remaining => remainingNext remaining (by simp [linked])) fun _ _ => id
      | some accountId =>
          refine withdrawsAsk emptied (c := .findUser accountId) (fun found s => found = none → n = first → Revoked uid accountId s)
            (remainingLasts _) (fun _ _ _ => trivial) (fun s remaining ok _ missing same => ?_) fun found => ?_
          · have answered : s.outcome = .applied := (ok remaining.1).2.2.2.1 same
            have nobody : s.users accountId = none := by
              simpa only [answerLinks,LinkWorld.read,if_pos answered] using missing
            intro entry held
            simp only [LinkWorld.entry,answerLinks,nobody,Option.bind_none] at held
            cases held
          · cases found with
            | none =>
                refine tripleMono ih (fun s holds => remainingNext holds.1 fun other same => ?_) fun _ _ => id
                cases Option.some.inj (linked.symm.trans same)
                exact holds.2 rfl
            | some _ =>
                refine tripleMono (P := Remaining uid first n (subject :: rest)) ?_ (fun s holds => holds.1) fun _ _ => id
                refine withdrawsBind (Q := fun r s => r = .ok () → Revoked uid accountId s) (remainingLasts _) ?_ (fun _ => ?_)
                  fun _ _ same => by cases same
                · rw [ScimConnection.sourceKey,own]
                  exact updateRevokes emptied (remainingLasts _) (fun s remaining => remaining.1) ⟨rfl,rfl⟩
                · refine tripleMono ih (fun s holds => remainingNext holds.1 fun other same => ?_) fun _ _ => id
                  cases Option.some.inj (linked.symm.trans same)
                  exact fun _ => holds.2 rfl

theorem listCoveredWithdraws (lasting : Enduring uid first F) (begun : ∀ s, F s → Begun first s) (own : connection.uid = uid) :
    Withdraws D uid first n F (ScimLinkService.listSubjects connection) fun r s =>
      ∀ subjects, r = .ok subjects → Remaining uid first n subjects s := by
  unfold ScimLinkService.listSubjects
  refine withdrawsAsk emptied (c := .list .subject) (fun resources s =>
    Remaining uid first n ((resources.getD []).filter (·.connectionUid = connection.uid)) s) lasting (fun _ _ _ => trivial)
    (fun s holds ok _ => ⟨begun s holds,fun same accountId left => ?_⟩) fun resources => ?_
  · obtain ⟨_,covered,_,answered,_⟩ := ok (begun s holds)
    obtain ⟨name,record,there,mine,linked⟩ := covered accountId left
    refine ⟨⟨ScimDirectory.mapped .subject (name,record),s.versions .subject name,s.links name⟩,?_,linked⟩
    simp only [answerLinks,LinkWorld.read,if_pos (answered same),Option.getD_some,List.mem_filter,decide_eq_true_eq]
    refine ⟨?_,by rw [own]; exact mine⟩
    refine List.mem_map.mpr ⟨ScimDirectory.mapped .subject (name,record),List.mem_map.mpr ⟨_,mapGetMember there,rfl⟩,?_⟩
    simp [ScimDirectory.mapped]
  · refine withdrawsPure (lasting.and (remainingLasts _)) fun s holds subjects same => ?_
    cases same
    exact holds.2

theorem revokeConnectionWithdraws (lasting : Enduring uid first F) (started : ∀ s, F s → n < s.operations.length)
    (later : connection.uid = uid → first ≤ n) (revokes : n = first → connection.uid = uid) :
    Withdraws D uid first n F (ScimLinkService.revokeConnection connection) fun r s =>
      r = .ok () → n = first → ∀ accountId, Revoked uid accountId s := by
  unfold ScimLinkService.revokeConnection
  by_cases own : connection.uid = uid
  · have begun (s : LinkWorld) (holds : F s) : Begun first s := (later own).trans_lt (started s holds)
    refine withdrawsBind lasting (listCoveredWithdraws emptied lasting begun own) (fun subjects => ?_) fun _ _ => nofun
    exact tripleMono (revokeSubjectsWithdraws emptied own) (fun s holds => holds.2 subjects rfl) fun _ _ => id
  · refine tripleMono (withdrawsThen lasting ?_ (fun subjects => revokeOtherWithdraws emptied lasting own) fun _ _ => trivial)
      (fun _ => id) fun _ _ _ _ same => absurd (revokes same) own
    exact tripleMono (listSubjectsWithdraws emptied lasting) (fun _ => id) fun _ _ _ => trivial

theorem approveWithdraws (lasting : Enduring uid first F) (begun : ∀ s, F s → Begun first s)
    (returned : ∀ s, F s → .returned first ∈ s.log) :
    Withdraws D uid first n F (Account.approve accountId) fun _ _ => True := by
  unfold Account.approve
  refine withdrawsAsk emptied (c := .findUser accountId) (fun found _ => ∀ specs, found = some specs →
    ∀ entry, specs.bind (mapGet ("scim-" ++ uid)) = some entry → entry.active = false ∧ entry.groups = []) lasting
    (fun _ _ _ => trivial) (fun s holds ok _ specs given entry held => ?_) fun found => ?_
  · have there : s.users accountId = some specs := readGiven given
    refine (ok (begun s holds)).2.2.2.2 (returned s holds) accountId entry ?_
    rw [LinkWorld.entry,there]
    exact held
  · have told := lasting.and (G := fun _ => ∀ specs, found = some specs →
      ∀ entry, specs.bind (mapGet ("scim-" ++ uid)) = some entry → entry.active = false ∧ entry.groups = [])
      fun _ _ _ _ => id
    cases found with
    | none => exact withdrawsThrow told fun _ _ => trivial
    | some specs =>
        refine withdrawsCall emptied told (fun _ _ => trivial) fun again => ?_
        cases again with
        | none => exact withdrawsThrow told fun _ _ => trivial
        | some existing =>
            refine withdrawsAsk emptied (c := .resubmit accountId existing specs) (fun _ _ => True) told
              (fun s holds ok begun => ⟨(ok begun).2.2.2.2 (returned s holds.1) accountId,holds.2 specs rfl⟩)
              (fun _ _ _ _ => trivial) fun updated => ?_
            refine tripleMono ?_ (fun s holds => holds.1) fun _ _ => id
            cases updated with
            | none => exact withdrawsThrow told fun _ _ => trivial
            | some _ =>
                exact withdrawsCall emptied (f := .pure) told (fun _ _ => trivial) fun _ => withdrawsPure told fun _ _ => trivial

def Begins (first n : Nat) (operation : LinkOperation) (s : LinkWorld) : Prop :=
  s.operations[n]? = some operation ∧ (operation.IsApproval → first < n → .returned first ∈ s.log)

omit emptied in
theorem growingBegins (first n : Nat) (operation : LinkOperation) : LinkGrowing (Begins first n operation) :=
  fun _ _ grows holds => ⟨grows.operations n operation holds.1,fun approval later => grows.log (holds.2 approval later)⟩

theorem programWithdraws {operation : LinkOperation} (revokes : n = first → operation.Revokes uid)
    (later : operation.Revokes uid ∨ operation.IsApproval → first ≤ n) :
    Withdraws D uid first n (Begins first n operation) (operation.program hashScimToken digest) fun r s =>
      r = .ok () → n = first → ∀ accountId, Revoked uid accountId s := by
  have asking : Enduring uid first (Begins first n operation) := lastingGrowing (growingBegins first n operation)
  have started (s : LinkWorld) (holds : Begins first n operation s) : n < s.operations.length :=
    (List.getElem?_eq_some_iff.mp holds.1).1
  cases operation with
  | login providerKey accountId linkClaims =>
      simp only [LinkOperation.program]
      split
      · exact withdrawsPure asking fun _ _ _ same => (revokes same).elim
      · exact withdrawsThen asking (linkAccountWithdraws emptied asking fun s holds => holds.1)
          (fun _ => withdrawsPure asking fun _ _ _ same => (revokes same).elim) fun _ _ same => by cases same
  | scim connectionId authorization command =>
      exact withdrawsThen asking (routeWithdraws emptied asking started)
        (fun _ => withdrawsPure asking fun _ _ _ same => (revokes same).elim) fun _ _ same => by cases same
  | reconcile connection =>
      simp only [LinkOperation.program]
      split
      · rename_i disabled
        exact revokeConnectionWithdraws emptied asking started (fun own => later (.inl ⟨disabled,own⟩)) fun same => (revokes same).2
      · rename_i enabled
        exact withdrawsPure asking fun _ _ _ same => absurd (revokes same).1 enabled
  | deleted connection => exact revokeConnectionWithdraws emptied asking started (fun own => later (.inl own)) revokes
  | approve accountId =>
      have approval : (LinkOperation.approve accountId).IsApproval := ⟨accountId,rfl⟩
      have after : first < n := Nat.lt_of_le_of_ne (later (.inr approval)) fun same => (revokes same.symm).elim
      exact tripleMono (approveWithdraws emptied asking (fun s holds => after.trans (started s holds))
        fun s holds => holds.2 approval after) (fun _ => id) fun _ _ _ _ same => absurd same (Nat.ne_of_gt after)

theorem operationWithdraws {operation : LinkOperation} (revokes : n = first → operation.Revokes uid) :
    Withdraws D uid first n (Begins first n operation) (operation.thread hashScimToken digest) fun _ _ => True := by
  by_cases earlier : (operation.Revokes uid ∨ operation.IsApproval) ∧ n < first
  · exact tripleMono (earlierWithdraws _) (fun s holds => ⟨earlier.2,.inr (.inr ⟨operation,holds.1,earlier.1⟩)⟩) fun _ _ => id
  · have asking : Enduring uid first (Begins first n operation) := lastingGrowing (growingBegins first n operation)
    refine withdrawsBind asking (programWithdraws emptied revokes fun own => Nat.le_of_not_lt fun before => earlier ⟨own,before⟩)
      (fun _ => ?_) fun _ _ => trivial
    have ended : Enduring uid first fun s => Begins first n operation s ∧
        (Except.ok (ε := ScimFailure) () = .ok () → n = first → ∀ accountId, Revoked uid accountId s) := by
      refine fun s t grows revoking holds => ⟨asking s t grows revoking holds.1,fun done same accountId => ?_⟩
      have begun : Begun first s := same ▸ (List.getElem?_eq_some_iff.mp holds.1.1).1
      exact revokedLater (revoking begun) (holds.2 done same accountId)
    refine withdrawsCall emptied (c := .returned) (f := .pure) ended (fun s holds same => ⟨?_,holds.2 rfl same⟩) fun _ =>
      withdrawsPure ended fun _ _ => trivial
    exact same ▸ (List.getElem?_eq_some_iff.mp holds.1.1).1

end Programs

namespace LinkPool
variable {D : ScimDeltas} {hashScimToken digest : String → String} {uid : String} {first n : Nat} {pool : LinkPool}
  {s t : LinkWorld}

def UnderWay (pool : LinkPool) (n : Nat) : Prop :=
  ∃ (c : LinkCall) (next : LinkAnswer c → LinkProgram Unit), pool.threads[n]? = some (.call c next)

def Quiet (uid : String) (first : Nat) (pool : LinkPool) : Prop :=
  ∀ n, n < first → UnderWay pool n → ¬ Concerns uid n pool.state

structure Kept (D : ScimDeltas) (uid : String) (first : Nat) (pool : LinkPool) : Prop where
  steady : pool.Steady (answerLinks D) LinkCall.awaits fun n => withdrawalContract uid first n
  numbered : pool.state.operations.length = pool.threads.length
  withdrawn : Begun first pool.state → Withdrawn uid pool.state ∧ LinkCovered uid pool.state ∧ Quiet uid first pool
  returned : .returned first ∈ pool.state.log → Begun first pool.state ∧ ∀ accountId, Revoked uid accountId pool.state

def Permits (uid : String) (first : Nat) (pool : LinkPool) : LinkMove → Prop
  | .start operation => (pool.threads.length = first → operation.Revokes uid ∧ Withdrawn uid pool.state ∧
        LinkCovered uid pool.state ∧ Quiet uid first pool) ∧
      (first < pool.threads.length → operation.IsApproval → .returned first ∈ pool.state.log)
  | .proceed n outcome _ => first < pool.threads.length → n = first → outcome = .applied
  | .configure _ connection => first < pool.threads.length → ∀ c, connection = some c → c.uid = uid → c.disabled = true
  | .editUser _ edit => first < pool.threads.length → SparesConnections edit

theorem withdrawalApart {m : Nat} (_ : n ≠ m) (moved : (withdrawalContract uid first n).guarantee s t) :
    (withdrawalContract uid first m).rely s t := ⟨moved.1,moved.2.2.1⟩

theorem withdrawalIdle (s : LinkWorld) : (withdrawalContract uid first n).guarantee s s :=
  ⟨linkGrowsSelf s,rfl,fun _ => revokingSame rfl rfl,.inl⟩

theorem everyAwaited (c : LinkCall) : c.awaits = true := rfl

theorem startState (D : ScimDeltas) (hashScimToken digest : String → String) (pool : LinkPool) (operation : LinkOperation) :
    (step D hashScimToken digest pool (.start operation)).state =
      {pool.state with operations := pool.state.operations ++ [operation]} := by
  simp only [step,Pool.spawn,Pool.edit,settleAll (answerLinks D _) everyAwaited]

theorem proceedCall (D : ScimDeltas) (n : Nat) (pool : LinkPool) :
    (pool.proceed (answerLinks D) LinkCall.awaits n ()).state = pool.state ∨
      ∃ c, UnderWay pool n ∧ (pool.proceed (answerLinks D) LinkCall.awaits n ()).state = (answerLinks D n () c pool.state).2 := by
  unfold Pool.proceed
  split
  · rename_i p found
    cases p with
    | pure a => exact .inl rfl
    | throw e => exact .inl rfl
    | call c next =>
        refine .inr ⟨c,⟨c,next,found⟩,?_⟩
        simp only [turn,settleAll (answerLinks D n) everyAwaited]
  · exact .inl rfl

theorem proceedUnderWay {m : Nat} (way : UnderWay (pool.proceed (answerLinks D) LinkCall.awaits n ()) m) : UnderWay pool m := by
  obtain ⟨c,next,found⟩ := way
  unfold Pool.proceed at found
  split at found
  · rename_i p here
    dsimp only at found
    by_cases same : n = m
    · subst same
      cases p with
      | pure a =>
          rw [List.getElem?_set_self (List.getElem?_eq_some_iff.mp here).1] at found
          cases found
      | throw e =>
          rw [List.getElem?_set_self (List.getElem?_eq_some_iff.mp here).1] at found
          cases found
      | call c next => exact ⟨c,next,here⟩
    · rw [List.getElem?_set_ne same] at found
      exact ⟨c,next,found⟩
  · exact ⟨c,next,found⟩

theorem connectionsCall (D : ScimDeltas) (n : Nat) (c : LinkCall) (s : LinkWorld) :
    (answerLinks D n () c s).2.connections = s.connections := by
  cases c with
  | connection id =>
      simp only [answerLinks]
      split <;> rfl
  | connections =>
      simp only [answerLinks]
      split <;> rfl
  | list kind => rfl
  | get kind name => rfl
  | create kind name record =>
      refine serveCases (P := fun _ t => t.connections = s.connections) rfl fun t done => ?_
      obtain ⟨_,rfl⟩ := createServed done
      exact ⟨rfl,rfl⟩
  | patch kind name existing identity =>
      refine serveCases (P := fun _ t => t.connections = s.connections) rfl fun t done => ?_
      obtain ⟨_,_,_,rfl⟩ := patchServed done
      exact ⟨rfl,rfl⟩
  | linkSubject name resourceVersion accountId =>
      refine serveCases (P := fun _ t => t.connections = s.connections) rfl fun t done => ?_
      obtain ⟨_,_,_,rfl⟩ := linkServed done
      exact ⟨rfl,rfl⟩
  | findUser accountId => rfl
  | patchUser accountId existing key values =>
      refine serveCases (P := fun _ t => t.connections = s.connections) rfl fun t done => ?_
      obtain ⟨_,_,_,_,rfl⟩ := projectServed done
      exact ⟨rfl,rfl⟩
  | resubmit accountId existing specs =>
      refine serveCases (P := fun _ t => t.connections = s.connections) rfl fun t done => ?_
      obtain ⟨_,_,_,_,rfl⟩ := resubmitServed done
      exact ⟨rfl,rfl⟩
  | reconcileUserStatus accountId => rfl
  | now => rfl
  | returned => rfl

theorem configuredKeeps {id : String} {connection : Option ScimConnectionObject} (withdrawn : Withdrawn uid s)
    (kept : ∀ c, connection = some c → c.uid = uid → c.disabled = true) : Withdrawn uid (s.configure id connection) := by
  intro entry inside own
  cases connection with
  | none => exact withdrawn entry (List.mem_filter.mp inside).1 own
  | some connection =>
      rcases mapSetMember inside with rfl | before
      · exact kept connection rfl own
      · exact withdrawn entry before own

theorem configuredConcerns {id : String} {connection : Option ScimConnectionObject}
    (concerns : Concerns uid n (s.configure id connection)) : Concerns uid n s := by
  cases connection with
  | none => exact concerns
  | some connection =>
      rcases concerns with ⟨other,found,rest⟩ | ⟨providerKey,accountId,linkClaims,connections,other,asked,listed,rest⟩ | revokes
      · exact .inl ⟨other,(List.mem_cons.mp found).resolve_left nofun,rest⟩
      · exact .inr (.inl ⟨providerKey,accountId,linkClaims,connections,other,asked,(List.mem_cons.mp listed).resolve_left nofun,rest⟩)
      · exact .inr (.inr revokes)

theorem startedConcerns {operation : LinkOperation} (before : n < s.operations.length)
    (concerns : Concerns uid n {s with operations := s.operations ++ [operation]}) : Concerns uid n s := by
  rcases concerns with found | ⟨providerKey,accountId,linkClaims,connections,other,asked,rest⟩ | ⟨other,asked,revokes⟩
  · exact .inl found
  · exact .inr (.inl ⟨providerKey,accountId,linkClaims,connections,other,(List.getElem?_append_left before).symm.trans asked,rest⟩)
  · exact .inr (.inr ⟨other,(List.getElem?_append_left before).symm.trans asked,revokes⟩)

theorem editedRevoking (accountId : String) {edit : Option Identities → Option Identities} (spares : SparesConnections edit) :
    Revoking uid s (s.editUser accountId edit) := by
  refine ⟨fun other => ?_,fun _ _ _ _ => rfl⟩
  unfold Revoked LinkWorld.entry LinkWorld.editUser
  dsimp only
  split
  · rename_i same
    subst same
    rcases spares (s.users other) uid with kept | gone
    · exact .inl kept
    · exact .inr fun entry held => by rw [gone] at held; cases held
  · exact .inl rfl

theorem beginKept : Kept D uid first begin where
  steady := Pool.steadyEmpty _
  numbered := rfl
  withdrawn := nofun
  returned := nofun

variable (emptied : ∀ groups patched, D.groups.apply groups [] [] = some patched → patched = [])
include emptied

theorem startKept {operation : LinkOperation} (kept : Kept D uid first pool) (permits : Permits uid first pool (.start operation)) :
    Kept D uid first (step D hashScimToken digest pool (.start operation)) := by
  have grows := startedGrows pool.state operation
  have still : Revoking uid pool.state {pool.state with operations := pool.state.operations ++ [operation]} := revokingSame rfl rfl
  have edited : Pool.Steady (answerLinks D) LinkCall.awaits (fun n => withdrawalContract uid first n)
      (pool.edit fun s => {s with operations := s.operations ++ [operation]}) :=
    Pool.steadyEdit (fun _ _ _ _ => withdrawalTrans) kept.steady fun _ => ⟨grows,fun _ => still⟩
  have asked : (pool.state.operations ++ [operation])[pool.threads.length]? = some operation := by
    rw [← kept.numbered]
    exact List.getElem?_concat_length
  have instant (c : LinkCall) : c.awaits ≠ false := nofun
  have sound : Sound (answerLinks D pool.threads.length) (withdrawalContract uid first pool.threads.length)
      (operation.thread hashScimToken digest) (fun _ _ => True)
      {pool.state with operations := pool.state.operations ++ [operation]} :=
    operationWithdraws emptied (fun same => (permits.1 same).1) _ ⟨asked,fun approval later => permits.2 later approval⟩
  have keeps := soundKeeps (fun c never => absurd never (instant c)) (withdrawalIdle _) sound
  have state := startState D hashScimToken digest pool operation
  refine ⟨(Pool.steadySpawn (fun _ _ _ _ => withdrawalTrans) withdrawalApart edited keeps).1,?_,fun begun => ?_,fun noted => ?_⟩
  · rw [state]
    simp [step,Pool.edit,Pool.spawn,kept.numbered]
  · have reached : first ≤ pool.threads.length := by
      rw [state] at begun
      simpa [Begun,kept.numbered,Nat.lt_succ_iff] using begun
    have before : Withdrawn uid pool.state ∧ LinkCovered uid pool.state ∧ Quiet uid first pool := by
      rcases Nat.lt_or_ge first pool.threads.length with already | now
      · exact kept.withdrawn (by rw [Begun,kept.numbered]; exact already)
      · exact (permits.1 (Nat.le_antisymm now reached)).2
    obtain ⟨withdrawn,covered,quiet⟩ := before
    rw [state]
    refine ⟨withdrawn,coveredLater grows still covered,fun n earlier way concerns => ?_⟩
    have within : n < pool.threads.length := earlier.trans_le reached
    rw [state] at concerns
    refine quiet n earlier ?_ (startedConcerns (kept.numbered.symm ▸ within) concerns)
    obtain ⟨c,next,found⟩ := way
    exact ⟨c,next,(List.getElem?_append_left within).symm.trans found⟩
  · rw [state] at noted ⊢
    obtain ⟨begun,revoked⟩ := kept.returned noted
    exact ⟨begunLater grows begun,revoked⟩

theorem stepKept {move : LinkMove} (kept : Kept D uid first pool) (permits : Permits uid first pool move) :
    Kept D uid first (step D hashScimToken digest pool move) := by
  cases move with
  | start operation => exact startKept emptied kept permits
  | proceed n outcome time =>
      have still : LinkGrows pool.state (facing outcome time pool).state := linkGrowsApart (List.Subset.refl _) rfl rfl rfl rfl
      have steady : (facing outcome time pool).Steady (answerLinks D) LinkCall.awaits fun n => withdrawalContract uid first n :=
        Pool.steadyEdit (fun _ _ _ _ => withdrawalTrans) kept.steady fun n => ⟨still,fun _ => revokingSame rfl rfl⟩
      have ready : (facing outcome time pool).Ready (fun n => (withdrawalContract uid first n).ok) n := by
        unfold Pool.Ready
        split
        · rename_i c next found
          intro begun
          obtain ⟨withdrawn,covered,quiet⟩ := kept.withdrawn begun
          exact ⟨withdrawn,covered,fun before => quiet n before ⟨c,next,found⟩,permits (kept.numbered ▸ begun),
            fun noted => (kept.returned noted).2⟩
        · trivial
      obtain ⟨stands,grows,operations,revoking,returned⟩ := Pool.steadyProceed (w := ()) (fun _ _ _ _ => withdrawalTrans)
        withdrawalApart (withdrawalStill _) (withdrawalIdle _) steady ready
      have before (begun : Begun first ((facing outcome time pool).proceed (answerLinks D) LinkCall.awaits n ()).state) :
          Begun first pool.state := by
        unfold Begun at begun
        rw [operations] at begun
        exact begun
      refine ⟨stands,?_,fun begun => ?_,fun noted => ?_⟩
      · rw [step,Pool.proceedLength,operations]
        exact kept.numbered
      · obtain ⟨withdrawn,covered,quiet⟩ := kept.withdrawn (before begun)
        refine ⟨?_,coveredLater grows (revoking (before begun)) covered,fun m earlier way concerns => ?_⟩
        · rcases proceedCall D n (facing outcome time pool) with same | ⟨c,_,same⟩
          · rw [step,same]
            exact withdrawn
          · intro entry inside own
            rw [step,same,connectionsCall] at inside
            exact withdrawn entry inside own
        · have quietBefore := quiet m earlier (@proceedUnderWay D n (facing outcome time pool) m way)
          rcases proceedCall D n (facing outcome time pool) with same | ⟨c,_,same⟩
          · rw [step,same] at concerns
            exact quietBefore concerns
          · rw [step,same] at concerns
            exact quietBefore (concernsCall (s := (facing outcome time pool).state) withdrawn concerns)
      · rcases returned noted with earlier | done
        · obtain ⟨begun,revoked⟩ := kept.returned earlier
          exact ⟨begunLater grows begun,fun accountId => revokedLater (revoking begun) (revoked accountId)⟩
        · exact done
  | configure id connection =>
      have grows := configuredGrows id connection (s := pool.state)
      have still : Revoking uid pool.state (pool.state.configure id connection) :=
        revokingSame (by cases connection <;> rfl) (by cases connection <;> rfl)
      have operations : (pool.state.configure id connection).operations = pool.state.operations := by cases connection <;> rfl
      have before (begun : Begun first (pool.state.configure id connection)) : Begun first pool.state := by
        unfold Begun at begun
        rwa [operations] at begun
      refine ⟨Pool.steadyEdit (f := fun s => s.configure id connection) (fun _ _ _ _ => withdrawalTrans) kept.steady
        fun _ => ⟨grows,fun _ => still⟩,(congrArg List.length operations).trans kept.numbered,fun begun => ?_,fun noted => ?_⟩
      · obtain ⟨withdrawn,covered,quiet⟩ := kept.withdrawn (before begun)
        exact ⟨configuredKeeps withdrawn (permits (kept.numbered ▸ before begun)),coveredLater grows still covered,
          fun n earlier way concerns => quiet n earlier way (configuredConcerns concerns)⟩
      · have noted : .returned first ∈ pool.state.log := by
          cases connection with
          | none => exact noted
          | some connection => exact (List.mem_cons.mp noted).resolve_left fun same => by cases same
        obtain ⟨begun,revoked⟩ := kept.returned noted
        exact ⟨begunLater grows begun,fun accountId => revokedLater still (revoked accountId)⟩
  | editUser accountId edit =>
      have grows : LinkGrows pool.state (pool.state.editUser accountId edit) :=
        linkGrowsApart (List.Subset.refl _) rfl rfl rfl rfl
      have revoking (begun : Begun first pool.state) : Revoking uid pool.state (pool.state.editUser accountId edit) :=
        editedRevoking accountId (permits (kept.numbered ▸ begun))
      refine ⟨Pool.steadyEdit (f := fun s => s.editUser accountId edit) (fun _ _ _ _ => withdrawalTrans) kept.steady
        fun _ => ⟨grows,revoking⟩,kept.numbered,fun begun => ?_,fun noted => ?_⟩
      · obtain ⟨withdrawn,covered,quiet⟩ := kept.withdrawn begun
        exact ⟨withdrawn,coveredLater grows (revoking begun) covered,quiet⟩
      · obtain ⟨begun,revoked⟩ := kept.returned noted
        exact ⟨begun,fun account => revokedLater (revoking begun) (revoked account)⟩

omit emptied in
theorem stepLength (pool : LinkPool) (move : LinkMove) :
    pool.threads.length ≤ (step D hashScimToken digest pool move).threads.length ∧
    ∀ operation, move = .start operation → pool.threads.length < (step D hashScimToken digest pool move).threads.length := by
  cases move with
  | start operation => simp [step,Pool.spawn,Pool.edit]
  | proceed n outcome time => exact ⟨by rw [step,Pool.proceedLength]; exact le_refl _,fun _ same => by cases same⟩
  | configure id connection => exact ⟨le_refl _,fun _ same => by cases same⟩
  | editUser accountId edit => exact ⟨le_refl _,fun _ same => by cases same⟩

omit emptied in
theorem runLength (moves : List LinkMove) (pool : LinkPool) :
    pool.threads.length ≤ (run D hashScimToken digest moves pool).threads.length := by
  induction moves generalizing pool with
  | nil => exact le_refl _
  | cons move rest ih => exact (stepLength pool move).1.trans (ih _)

theorem runBefore (moves : List LinkMove) (kept : Kept D uid first pool)
    (before : (run D hashScimToken digest moves pool).threads.length ≤ first) :
    Kept D uid first (run D hashScimToken digest moves pool) := by
  induction moves generalizing pool with
  | nil => exact kept
  | cons move rest ih =>
      have bound : (step D hashScimToken digest pool move).threads.length ≤ first := (runLength rest _).trans before
      have earlier : ¬ first < pool.threads.length := fun beyond =>
        absurd ((stepLength pool move).1.trans bound) (Nat.not_le_of_lt beyond)
      refine ih (stepKept emptied kept ?_) before
      cases move with
      | start operation =>
          have longer : pool.threads.length < (step D hashScimToken digest pool (.start operation)).threads.length :=
            (stepLength pool _).2 operation rfl
          exact ⟨fun now => absurd (longer.trans_le bound) (now ▸ Nat.lt_irrefl _),fun begun => absurd begun earlier⟩
      | proceed n outcome time => exact fun begun => absurd begun earlier
      | configure id connection => exact fun begun => absurd begun earlier
      | editUser accountId edit => exact fun begun => absurd begun earlier

theorem runAfter (moves : List LinkMove) (kept : Kept D uid first pool) (after : first < pool.threads.length)
    (configured : ∀ id c, .configure id (some c) ∈ moves → c.uid = uid → c.disabled = true)
    (answered : ∀ outcome time, .proceed first outcome time ∈ moves → outcome = .applied)
    (spares : ∀ move ∈ moves, move.Spares)
    (approved : ∀ during accountId rest, moves = during ++ .start (.approve accountId) :: rest →
      .returned first ∈ (run D hashScimToken digest during pool).state.log) :
    Kept D uid first (run D hashScimToken digest moves pool) := by
  induction moves generalizing pool with
  | nil => exact kept
  | cons move rest ih =>
      refine ih (stepKept emptied kept ?_) (after.trans_le (stepLength pool move).1)
        (fun id c inside => configured id c (List.mem_cons_of_mem _ inside))
        (fun outcome time inside => answered outcome time (List.mem_cons_of_mem _ inside))
        (fun other inside => spares other (List.mem_cons_of_mem _ inside))
        fun during accountId later parted => approved (move :: during) accountId later (by rw [parted,List.cons_append])
      cases move with
      | start operation =>
          refine ⟨fun now => absurd now (Nat.ne_of_gt after),?_⟩
          rintro _ ⟨accountId,rfl⟩
          exact approved [] accountId rest rfl
      | proceed n outcome time =>
          rintro _ rfl
          exact answered outcome time (List.mem_cons_self ..)
      | configure id connection =>
          rintro _ c rfl
          exact configured id c (List.mem_cons_self ..)
      | editUser accountId edit => exact fun _ => spares _ (List.mem_cons_self ..)

end LinkPool

/- Once a connection is withdrawn, with nothing under way that concerns it, a revocation that returns has taken from every account
what the connection gave it, and whatever runs at the same time or later gives nothing of it back. An approval that has read an
account before could: none begins until the revocation has returned. -/
theorem withdrawalFinal (D : ScimDeltas) (emptied : ∀ groups patched, D.groups.apply groups [] [] = some patched → patched = [])
    (hashScimToken digest : String → String) (uid : String) (before after : List LinkMove) (operation : LinkOperation)
    (revokes : operation.Revokes uid) (spares : ∀ move ∈ before ++ after, move.Spares) :
    let pool := LinkPool.run D hashScimToken digest before LinkPool.begin
    let final := LinkPool.run D hashScimToken digest (before ++ .start operation :: after) LinkPool.begin
    Withdrawn uid pool.state → (∀ n, pool.UnderWay n → ¬ Concerns uid n pool.state) →
      (∀ id c, .configure id (some c) ∈ after → c.uid = uid → c.disabled = true) →
      (∀ outcome time, .proceed pool.threads.length outcome time ∈ after → outcome = .applied) →
      (∀ during accountId rest, after = during ++ .start (.approve accountId) :: rest → .returned pool.threads.length ∈
        (LinkPool.run D hashScimToken digest (before ++ .start operation :: during) LinkPool.begin).state.log) →
      .returned pool.threads.length ∈ final.state.log →
      ∀ accountId entry, final.state.entry accountId ("scim-" ++ uid) = some entry → entry.active = false ∧ entry.groups = [] := by
  intro pool final withdrawn quiet configured answered approved returned
  have ready : LinkPool.Kept D uid pool.threads.length pool :=
    LinkPool.runBefore emptied before LinkPool.beginKept (le_refl _)
  have accounted : LinkPool.Accounted D True hashScimToken pool := LinkPool.runAccounted before LinkPool.beginAccounted
    fun _ move inside => spares move (List.mem_append_left _ inside)
  have begun : LinkPool.Kept D uid pool.threads.length (LinkPool.step D hashScimToken digest pool (.start operation)) :=
    LinkPool.stepKept emptied ready ⟨fun _ => ⟨revokes,withdrawn,ledgerCovers accounted.ledger,fun n _ way => quiet n way⟩,
      fun never => absurd never (Nat.lt_irrefl _)⟩
  have whole (moves : List LinkMove) : LinkPool.run D hashScimToken digest (before ++ .start operation :: moves) LinkPool.begin =
      LinkPool.run D hashScimToken digest moves (LinkPool.step D hashScimToken digest pool (.start operation)) :=
    List.foldl_append ..
  have last : final = _ := whole after
  rw [last] at returned ⊢
  have ended : LinkPool.Kept D uid pool.threads.length (LinkPool.run D hashScimToken digest after _) :=
    LinkPool.runAfter emptied after begun ((LinkPool.stepLength pool _).2 operation rfl) configured answered
      (fun move inside => spares move (List.mem_append_right _ inside))
      fun during accountId rest parted => whole during ▸ approved during accountId rest parted
  exact (ended.returned returned).2

def acme : ScimConnectionObject where
  uid := "u1"
  group := ⟨"codemowers","org-acme"⟩
  tokenHashes := [String.ofList (List.replicate 64 'a')]
  linking := some ⟨"entra","tid","tenant-acme","oid"⟩

def plainDeltas : ScimDeltas := {wholeDeltas with externalId := .whole}

def acmeHash (_ : String) : String := String.ofList (List.replicate 64 'a')

def aliceLogin : LinkMove := .start (.login "entra" "alice" [("tid",.string "tenant-acme"),("oid",.string "entra-user-1")])

def answeredMoves (n count : Nat) : List LinkMove := List.replicate count (.proceed n .applied "now")

def aliceLinked : List LinkMove :=
  [.configure "acme" (some acme),.editUser "alice" fun _ => some none,
    .start (.scim "acme" "Bearer t" (.postUser (.object
      [("userName",.string "alice@acme"),("externalId",.string "entra-user-1")])))] ++ answeredMoves 0 9 ++
    aliceLogin :: answeredMoves 1 9 ++ [.configure "acme" (some {acme with disabled := true})]

def aliceRevoked : List LinkMove := aliceLogin :: answeredMoves 2 3 ++ answeredMoves 3 4 ++ answeredMoves 2 3 ++ answeredMoves 3 4

def aliceAgain : List LinkMove := aliceRevoked ++ .start (.approve "alice") :: answeredMoves 4 5

theorem aliceWithdrawn :
    (((LinkPool.run plainDeltas acmeHash id aliceLinked LinkPool.begin).state.entry "alice" "scim-u1").map (·.active) = some true) ∧
    ∀ accountId entry, (LinkPool.run plainDeltas acmeHash id
      (aliceLinked ++ .start (.reconcile {acme with disabled := true}) :: aliceAgain) LinkPool.begin).state.entry accountId
        ("scim-" ++ "u1") = some entry → entry.active = false ∧ entry.groups = [] := by
  refine ⟨by decide +kernel,?_⟩
  have two : (LinkPool.run plainDeltas acmeHash id aliceLinked LinkPool.begin).threads.length = 2 := by decide +kernel
  have ended : (LinkPool.run plainDeltas acmeHash id aliceLinked LinkPool.begin).threads.all Pool.hasEnded = true := by
    decide +kernel
  have spares : ∀ move ∈ aliceLinked ++ aliceAgain, move.Spares := by
    have edits : ∀ accountId edit, .editUser accountId edit ∈ aliceLinked ++ aliceAgain → edit = fun _ => some none := by
      intro accountId edit inside
      have named : accountId = "alice" ∧ edit = fun _ => some none := by
        simpa [aliceLinked,aliceAgain,aliceRevoked,aliceLogin,answeredMoves] using inside
      exact named.2
    intro move inside
    cases move with
    | editUser accountId edit =>
        cases edits accountId edit inside
        exact fun _ _ => .inr rfl
    | _ => trivial
  refine withdrawalFinal plainDeltas (fun groups patched took => ?_) acmeHash id "u1" aliceLinked aliceAgain
    (.reconcile {acme with disabled := true}) ⟨rfl,rfl⟩ spares (by unfold Withdrawn; decide +kernel) (fun n way => ?_)
    (fun id c inside => ?_) (fun outcome time inside => ?_) (fun during accountId rest parted => ?_) (by rw [two]; decide +kernel)
  · have same : [] = patched := by simpa [plainDeltas,wholeDeltas,ObjectPatch.Patching.whole] using took
    exact same.symm
  · obtain ⟨c,next,found⟩ := way
    exact absurd rfl (Pool.endedThreads ended _ (List.mem_of_getElem? found) c next)
  · simp [aliceAgain,aliceRevoked,aliceLogin,answeredMoves] at inside
  · rw [two] at inside
    simp only [aliceAgain,aliceRevoked,aliceLogin,answeredMoves,List.mem_append,List.mem_cons,List.mem_replicate,
      LinkMove.proceed.injEq] at inside
    simp only [reduceCtorEq,false_or,Nat.reduceEqDiff,false_and,and_false,or_false,or_self] at inside
    exact inside.2.2.1
  · have before : .start (.approve accountId) ∉ aliceRevoked := by simp [aliceRevoked,aliceLogin,answeredMoves]
    have after : .start (.approve accountId) ∉ answeredMoves 4 5 := by simp [answeredMoves]
    obtain ⟨rfl,_,_⟩ := (List.append_cons_inj_of_notMem before after).mp parted
    rw [two]
    decide +kernel

end Passmower
