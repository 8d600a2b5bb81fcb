import Passmower.ScimWithdrawal
import Passmower.Resumption.Stepping

/-! What an operation that has returned has written of linked subjects has reached their accounts: however operations overlap, each
such change was projected by the operation that made it, after it made it. -/
namespace Passmower
open JavaScript Resumption Program

def LinkEvent.author : LinkEvent → Option Nat
  | .configured _ _ => none
  | .found n _ | .listed n _ | .stored n _ _ | .linked n _ _ _ | .projected n _ _ _ | .resubmitted n _ _ | .returned n => some n

inductive Owed (n : Nat) (earlier : List LinkEvent) : LinkEvent → String → ScimRecord → Prop where
  | stored {k : Nat} {name accountId : String} {before : ScimRecord} (record : ScimRecord)
      (linked : .linked k name accountId before ∈ earlier) : Owed n earlier (.stored n name record) accountId record
  | linked (name accountId : String) (record : ScimRecord) : Owed n earlier (.linked n name accountId record) accountId record

def ReachesAccount (n : Nat) (later : List LinkEvent) (accountId : String) (record : ScimRecord) : Prop :=
  ∃ values, .projected n accountId ("scim-" ++ record.connectionUid) values ∈ later ∧
    values.active = record.identity.isActive ∧ values.groups = record.identity.groups

def Paid (n : Nat) (due : String → ScimRecord → Prop) (log : List LinkEvent) : Prop :=
  ∀ later event earlier accountId record, log = later ++ event :: earlier → Owed n earlier event accountId record →
    ReachesAccount n later accountId record ∨ due accountId record

def Nothing (_ : String) (_ : ScimRecord) : Prop := False

section Payment
variable {n m : Nat} {due due' : String → ScimRecord → Prop} {log extra : List LinkEvent} {event : LinkEvent} {accountId : String}
  {record : ScimRecord} {hashScimToken : String → String} {s t u : LinkWorld} {D : ScimDeltas}

theorem owedAuthor (owed : Owed n log event accountId record) : event.author = some n := by
  cases owed with
  | stored record linked => rfl
  | linked name accountId record => rfl

theorem paidCons (paid : Paid n due log) (own : ∀ accountId record, Owed n log event accountId record → due' accountId record)
    (rest : ∀ accountId record, due accountId record → ReachesAccount n [event] accountId record ∨ due' accountId record) :
    Paid n due' (event :: log) := by
  intro later other earlier accountId record parted owed
  cases later with
  | nil =>
      obtain ⟨rfl,rfl⟩ := List.cons.inj parted
      exact .inr (own accountId record owed)
  | cons newest later =>
      obtain ⟨rfl,before⟩ := List.cons.inj parted
      rcases paid later other earlier accountId record before owed with ⟨values,inside,fits⟩ | left
      · exact .inl ⟨values,List.mem_cons_of_mem _ inside,fits⟩
      · rcases rest accountId record left with ⟨values,inside,fits⟩ | owing
        · refine .inl ⟨values,?_,fits⟩
          rw [List.mem_singleton.mp inside]
          exact List.mem_cons_self ..
        · exact .inr owing

theorem paidLater (paid : Paid n due log) (others : ∀ event ∈ extra, event.author ≠ some n) : Paid n due (extra ++ log) := by
  induction extra with
  | nil => exact paid
  | cons event extra ih =>
      refine paidCons (ih fun other inside => others other (List.mem_cons_of_mem _ inside)) (fun accountId record owed => ?_)
        fun _ _ left => .inr left
      exact absurd (owedAuthor owed) (others event (List.mem_cons_self ..))

theorem paidFresh (fresh : ∀ event ∈ log, event.author ≠ some n) : Paid n due log := by
  rintro later event earlier accountId record rfl owed
  exact absurd (owedAuthor owed) (fresh event (List.mem_append_right _ (List.mem_cons_self ..)))

def Standing (n : Nat) (due : String → ScimRecord → Prop) (s : LinkWorld) : Prop := Paid n due s.log ∧ .returned n ∉ s.log

def propagationContract (hashScimToken : String → String) (n : Nat) : Contract linkCalls LinkWorld where
  ok s _ := LinkLedger False hashScimToken s
  rely s t := LinkGrows s t ∧ ∃ extra, t.log = extra ++ s.log ∧ ∀ event ∈ extra, event.author ≠ some n
  guarantee s t := LinkGrows s t ∧ t.operations = s.operations ∧
    (∃ extra, t.log = extra ++ s.log ∧ ∀ event ∈ extra, event.author = some n) ∧ (.returned n ∈ t.log → Paid n Nothing t.log)

theorem propagationTrans (moved : (propagationContract hashScimToken n).rely s t)
    (further : (propagationContract hashScimToken n).rely t u) : (propagationContract hashScimToken n).rely s u := by
  obtain ⟨grows,extra,same,others⟩ := moved
  obtain ⟨grows',extra',same',others'⟩ := further
  refine ⟨linkGrowsTrans grows grows',extra' ++ extra,by rw [same',same,List.append_assoc],fun event inside => ?_⟩
  rcases List.mem_append.mp inside with here | before
  · exact others' event here
  · exact others event before

theorem propagationStill (s : LinkWorld) : (propagationContract hashScimToken n).rely s s :=
  ⟨linkGrowsSelf s,[],rfl,fun _ inside => by cases inside⟩

theorem standingLater (moved : (propagationContract hashScimToken n).rely s t) (stands : Standing n due s) : Standing n due t := by
  obtain ⟨_,extra,same,others⟩ := moved
  refine ⟨same ▸ paidLater stands.1 others,fun returned => ?_⟩
  rw [same] at returned
  rcases List.mem_append.mp returned with here | before
  · exact others _ here rfl
  · exact stands.2 before

theorem standingMore (stands : Standing n due s) (more : ∀ accountId record, due accountId record → due' accountId record) :
    Standing n due' s :=
  ⟨fun later event earlier accountId record parted owed =>
    (stands.1 later event earlier accountId record parted owed).imp_right (more accountId record),stands.2⟩

theorem notesAuthor {c : LinkCall} (notes : Notes n s c event) : event.author = some n := by
  cases notes <;> rfl

theorem standingCall {c : LinkCall} (stands : Standing n due s) (paid : c = .returned → Paid n Nothing s.log) :
    (propagationContract hashScimToken n).guarantee s (answerLinks D n () c s).2 := by
  obtain ⟨grows,operations⟩ := linkCallGrows D n c s
  rcases callNotes D n c s with same | ⟨event,same,notes⟩
  · exact ⟨grows,operations,⟨[],same,fun _ inside => by cases inside⟩,fun returned => absurd (same ▸ returned) stands.2⟩
  · refine ⟨grows,operations,⟨[event],same,fun other inside => ?_⟩,fun returned => ?_⟩
    · rw [List.mem_singleton.mp inside]
      exact notesAuthor notes
    · rw [same] at returned ⊢
      rcases List.mem_cons.mp returned with here | before
      · subst here
        cases notes
        refine paidCons (paid rfl) (fun _ _ owed => ?_) fun _ _ left => .inr left
        cases owed
      · exact absurd before stands.2

def Harmless : LinkCall → Prop
  | .patch _ _ _ _ | .linkSubject _ _ _ | .returned => False
  | _ => True

theorem harmlessCall {c : LinkCall} (ledger : LinkLedger False hashScimToken s) (harmless : Harmless c) (stands : Standing n due s) :
    Standing n due (answerLinks D n () c s).2 := by
  have noting {event : LinkEvent} (nothing : ∀ accountId record, ¬ Owed n s.log event accountId record)
      (goes : event ≠ .returned n) : Paid n due (event :: s.log) ∧ .returned n ∉ event :: s.log := by
    refine ⟨paidCons stands.1 (fun accountId record owed => absurd owed (nothing accountId record)) fun _ _ left => .inr left,?_⟩
    intro returned
    rcases List.mem_cons.mp returned with here | before
    · exact goes here.symm
    · exact stands.2 before
  have created (kind : ScimKind) (name : String) (record : ScimRecord) :
      Standing n due (answerLinks D n () (.create kind name record) s).2 := by
    refine serveCases (P := fun _ t => Standing n due t) stands fun t done => ?_
    obtain ⟨fresh,rfl⟩ := createServed done
    have kept : Standing n due (s.created n kind name record) := by
      cases kind with
      | group => exact stands
      | subject =>
          refine noting (fun accountId other owed => ?_) (fun same => by cases same)
          cases owed with
          | stored _ linked =>
              obtain ⟨current,there,_⟩ := linkedStored ledger linked
              rw [fresh] at there
              cases there
    exact ⟨kept,kept⟩
  rcases callNotes D n c s with same | ⟨event,same,notes⟩
  · exact ⟨same ▸ stands.1,same ▸ stands.2⟩
  · cases notes with
    | created name record => exact created .subject name record
    | found here =>
        rw [Standing,same]
        exact noting (fun _ _ owed => by cases owed) (fun same => by cases same)
    | listed =>
        rw [Standing,same]
        exact noting (fun _ _ owed => by cases owed) (fun same => by cases same)
    | projected accountId key existing values =>
        rw [Standing,same]
        exact noting (fun _ _ owed => by cases owed) (fun same => by cases same)
    | resubmitted accountId existing specs =>
        rw [Standing,same]
        exact noting (fun _ _ owed => by cases owed) (fun same => by cases same)
    | patched name existing identity record => exact harmless.elim
    | linked name accountId resourceVersion record => exact harmless.elim
    | returned => exact harmless.elim

def DueOf (r : LinkedResource) (accountId : String) (record : ScimRecord) : Prop :=
  r.linkedAccountId = some accountId ∧ record = ⟨r.connectionUid,r.identity⟩

theorem patchDue {kind : ScimKind} {name uid : String} {existing identity : ScimIdentity} (ledger : LinkLedger False hashScimToken s)
    (owned : OwnedBy kind name uid s) (stands : Standing n Nothing s) :
    ∀ r, (answerLinks D n () (.patch kind name existing identity) s).1 = some r →
      Standing n (DueOf r) (answerLinks D n () (.patch kind name existing identity) s).2 ∧ r.connectionUid = uid := by
  refine serveCases (P := fun updated t => ∀ r, updated = some r → Standing n (DueOf r) t ∧ r.connectionUid = uid)
    (fun _ given => by cases given) fun t done => ⟨fun _ given => (by cases given),fun r given => ?_⟩
  obtain ⟨before,after,there,rfl⟩ := patchServed done
  obtain ⟨record,found,own⟩ := owned
  cases Option.some.inj (there.symm.trans found)
  obtain ⟨resource,held,rfl⟩ := Option.map_eq_some_iff.mp given
  obtain ⟨written,there',rfl⟩ := Option.map_eq_some_iff.mp held
  simp only [LinkWorld.written,findPut,and_self,if_true,Option.some.injEq] at there'
  subst there'
  refine ⟨?_,own⟩
  cases kind with
  | group => exact standingMore (s := s) stands fun _ _ left => left.elim
  | subject =>
      refine ⟨paidCons stands.1 (fun accountId other owed => ?_) fun _ _ left => left.elim,fun returned => ?_⟩
      · cases owed with
        | stored _ linked => exact ⟨(ledger.linked name accountId).mpr ⟨_,_,linked⟩,rfl⟩
      · rcases List.mem_cons.mp returned with here | earlier
        · cases here
        · exact stands.2 earlier

theorem linkDue {name accountId uid : String} {resourceVersion : Nat} (owned : OwnedBy .subject name uid s)
    (stands : Standing n Nothing s) :
    ∀ r, (answerLinks D n () (.linkSubject name resourceVersion accountId) s).1 = some r →
      Standing n (DueOf r) (answerLinks D n () (.linkSubject name resourceVersion accountId) s).2 ∧ r.connectionUid = uid := by
  refine serveCases (P := fun updated t => ∀ r, updated = some r → Standing n (DueOf r) t ∧ r.connectionUid = uid)
    (fun _ given => by cases given) fun t done => ⟨fun _ given => (by cases given),fun r given => ?_⟩
  obtain ⟨before,there,_,rfl⟩ := linkServed done
  obtain ⟨record,found,own⟩ := owned
  cases Option.some.inj (there.symm.trans found)
  obtain ⟨resource,held,rfl⟩ := Option.map_eq_some_iff.mp given
  obtain ⟨linked,there',rfl⟩ := Option.map_eq_some_iff.mp held
  cases Option.some.inj (there.symm.trans there')
  refine ⟨⟨paidCons stands.1 (fun account other owed => ?_) fun _ _ left => left.elim,fun returned => ?_⟩,own⟩
  · cases owed
    exact ⟨by simp [LinkWorld.linking],rfl⟩
  · rcases List.mem_cons.mp returned with here | earlier
    · cases here
    · exact stands.2 earlier

theorem projectPays {accountId key : String} {existing : Identities} {values : ScimProjection} (stands : Standing n due s)
    (pays : ∀ account record, due account record → account = accountId ∧ key = "scim-" ++ record.connectionUid ∧
      values.active = record.identity.isActive ∧ values.groups = record.identity.groups) :
    (answerLinks D n () (.patchUser accountId existing key values) s).1 = some () →
      Standing n Nothing (answerLinks D n () (.patchUser accountId existing key values) s).2 := by
  refine serveCases (P := fun updated t => updated = some () → Standing n Nothing t) (fun given => by cases given)
    fun t done => ⟨fun given => (by cases given),fun _ => ?_⟩
  obtain ⟨current,after,_,_,rfl⟩ := projectServed done
  refine ⟨paidCons stands.1 (fun _ _ owed => by cases owed) fun account record left => .inl ?_,fun returned => ?_⟩
  · obtain ⟨rfl,rfl,active,groups⟩ := pays account record left
    exact ⟨values,List.mem_singleton.mpr rfl,active,groups⟩
  · rcases List.mem_cons.mp returned with here | earlier
    · cases here
    · exact stands.2 earlier

end Payment

section Programs
variable {D : ScimDeltas} {hashScimToken digest : String → String} {n : Nat} {due : String → ScimRecord → Prop}
  {F : LinkWorld → Prop} {α β : Type} {connection : ScimConnection} {accountId key : String}

abbrev Propagates (D : ScimDeltas) (hashScimToken : String → String) (n : Nat) (F : LinkWorld → Prop) (p : LinkProgram α)
    (Q : Except ScimFailure α → LinkWorld → Prop) : Prop :=
  Triple (answerLinks D n) (propagationContract hashScimToken n) F p Q

def Settles (n : Nat) (r : Except ScimFailure α) (s : LinkWorld) : Prop := ∀ a, r = .ok a → Standing n Nothing s

variable {Q : Except ScimFailure α → LinkWorld → Prop}

theorem standingStable : Stable (propagationContract hashScimToken n) (Standing n due) :=
  fun _ _ moved stands => standingLater moved stands

theorem settlesPure {a : α} : Propagates D hashScimToken n (Standing n Nothing) (.pure a) (Settles n) :=
  triplePure standingStable fun _ stands _ _ => stands

theorem settlesThrow {e : ScimFailure} : Propagates D hashScimToken n (Standing n due) (.throw e : LinkProgram α) (Settles n) :=
  tripleThrow standingStable fun _ _ _ failed => by cases failed

theorem settlesBind {p : LinkProgram α} {f : α → LinkProgram β} (one : Propagates D hashScimToken n F p (Settles n))
    (next : ∀ a, Propagates D hashScimToken n (Standing n Nothing) (f a) (Settles n)) :
    Propagates D hashScimToken n F (p >>= f) (Settles n) := by
  refine tripleBind propagationStill (fun _ => Standing n Nothing) (tripleMono one (fun _ => id) fun r s ends => ?_) next
  cases r with
  | ok a => exact ends a rfl
  | error e => exact fun _ failed => by cases failed

theorem harmlessPropagates {c : LinkCall} {f : LinkAnswer c → LinkProgram α} (harmless : Harmless c)
    (next : ∀ a, Propagates D hashScimToken n (Standing n due) (f a) Q) :
    Propagates D hashScimToken n (Standing n due) (ask (I := linkCalls) c >>= f) Q := by
  refine tripleAsk (fun _ => Standing n due) standingStable (fun s _ stands ledger => ?_) next
  exact ⟨standingCall stands fun same => (by subst same; exact harmless.elim),harmlessCall ledger harmless stands⟩

theorem updatePropagates {body : ScimProjection} (pays : ∀ account record, due account record → account = accountId ∧
      key = "scim-" ++ record.connectionUid ∧ body.active = record.identity.isActive ∧ body.groups = record.identity.groups) :
    Propagates D hashScimToken n (Standing n due) (updateIdentity accountId key body) (Settles n) := by
  unfold updateIdentity
  refine harmlessPropagates (c := .findUser accountId) trivial fun found => ?_
  cases found with
  | none => exact settlesThrow
  | some existing =>
      refine tripleAsk (fun updated s => Standing n due s ∧ (updated = some () → Standing n Nothing s)) standingStable
        (fun s _ stands ledger => ⟨standingCall stands fun same => (by cases same),harmlessCall ledger trivial stands,
          projectPays stands pays⟩) fun updated => ?_
      cases updated with
      | none => exact tripleMono settlesThrow (fun s holds => holds.1) fun _ _ => id
      | some _ =>
          refine tripleMono (P := Standing n Nothing) ?_ (fun s holds => holds.2 rfl) fun _ _ => id
          exact harmlessPropagates (c := .reconcileUserStatus accountId) (f := .pure) trivial fun _ => settlesPure

theorem projectPropagates {identity : ScimIdentity} {linked : Option String} (pays : ∀ account record, due account record →
      linked = some account ∧ record.connectionUid = connection.uid ∧ record.identity = identity) :
    Propagates D hashScimToken n (Standing n due) (ScimLinkService.project connection identity linked) (Settles n) := by
  cases linked with
  | none =>
      refine triplePure standingStable fun s stands _ _ => standingMore stands fun account record left => ?_
      obtain ⟨same,_⟩ := pays account record left
      cases same
  | some accountId =>
      refine harmlessPropagates (c := .findUser accountId) trivial fun found => ?_
      cases found with
      | none => exact settlesThrow
      | some _ =>
          refine updatePropagates fun account record left => ?_
          obtain ⟨same,own,rfl⟩ := pays account record left
          exact ⟨(Option.some.inj same).symm,by rw [own]; rfl,rfl,rfl⟩

theorem dueProjects {r : LinkedResource} (own : r.connectionUid = connection.uid) (account : String) (record : ScimRecord)
    (left : DueOf r account record) :
    r.linkedAccountId = some account ∧ record.connectionUid = connection.uid ∧ record.identity = r.identity := by
  obtain ⟨linked,rfl⟩ := left
  exact ⟨linked,own,rfl⟩

theorem propagatesWith {p : LinkProgram α} {R : Except ScimFailure α → LinkWorld → Prop}
    (granted : Grants D False hashScimToken n (fun _ => True) p R) (kept : Propagates D hashScimToken n F p Q) :
    Propagates D hashScimToken n F p fun r s => R r s ∧ Q r s := by
  have stricter : ∀ s c, (propagationContract hashScimToken n).ok s c → (ledgerContract False hashScimToken).ok s c :=
    fun _ _ ledger => ledger
  have narrower : ∀ s t, (propagationContract hashScimToken n).rely s t → (ledgerContract False hashScimToken).rely s t :=
    fun _ _ moved => moved.1
  exact fun s holds => soundWith stricter narrower (granted s trivial) (kept s holds)

theorem listSubjectsPropagates : Propagates D hashScimToken n (Standing n Nothing) (ScimLinkService.listSubjects connection)
    fun r s => ∀ subjects, r = .ok subjects → Standing n Nothing s ∧
      ∀ subject ∈ subjects, ShownSubject connection.uid subject s := by
  have kept : Propagates D hashScimToken n (Standing n Nothing) (ScimLinkService.listSubjects connection) (Settles n) :=
    harmlessPropagates (c := .list .subject) trivial fun _ => settlesPure
  exact tripleMono (propagatesWith (listSubjectsGrants (growingConstant True)) kept) (fun _ => id)
    fun r s ends subjects same => ⟨ends.2 subjects same,ends.1 subjects same⟩

theorem linkUnlessLinkedPropagates {subject : LinkedResource} :
    Propagates D hashScimToken n (fun s => Standing n Nothing s ∧ ShownSubject connection.uid subject s)
      (ScimLinkService.linkUnlessLinked subject accountId) fun r s => ∀ updated, r = .ok updated →
        Standing n (DueOf updated) s ∧ updated.connectionUid = connection.uid := by
  have stable : Stable (propagationContract hashScimToken n) fun s =>
      Standing n Nothing s ∧ ShownSubject connection.uid subject s :=
    fun s t moved holds => ⟨standingLater moved holds.1,growingSubject _ _ s t moved.1 holds.2⟩
  unfold ScimLinkService.linkUnlessLinked
  cases subject.linkedAccountId with
  | none =>
      refine tripleAsk (fun updated s => ∀ r, updated = some r → Standing n (DueOf r) s ∧ r.connectionUid = connection.uid) stable
        (fun s _ holds _ => ⟨standingCall holds.1 fun same => (by cases same),linkDue ?_ holds.1⟩) fun updated => ?_
      · obtain ⟨kind,own,shown⟩ := holds.2
        obtain ⟨record,there,mine⟩ := shown.owner
        exact ⟨record,kind ▸ there,mine.trans own⟩
      · have told : Stable (propagationContract hashScimToken n) fun s => ∀ r, updated = some r →
            Standing n (DueOf r) s ∧ r.connectionUid = connection.uid :=
          fun s t moved told r given => ⟨standingLater moved (told r given).1,(told r given).2⟩
        cases updated with
        | none => exact tripleThrow told fun _ _ _ failed => by cases failed
        | some r =>
            refine triplePure told fun s holds updated same => ?_
            cases same
            exact holds r rfl
  | some other =>
      dsimp only
      split
      · exact tripleThrow stable fun _ _ _ failed => by cases failed
      · refine triplePure stable fun s holds updated same => ?_
        cases same
        exact ⟨standingMore holds.1 fun _ _ left => left.elim,holds.2.2.1⟩

theorem linkMatchedPropagates {connection : ScimConnectionObject} {externalId : String} :
    Propagates D hashScimToken n (Standing n Nothing) (ScimLinkService.linkMatched connection accountId externalId)
      (Settles n) := by
  unfold ScimLinkService.linkMatched
  refine tripleBind propagationStill (fun subjects s => Standing n Nothing s ∧
    ∀ subject ∈ subjects, ShownSubject connection.uid subject s) (tripleMono listSubjectsPropagates (fun _ => id)
    fun r s ends => ?_) fun subjects => ?_
  · cases r with
    | ok subjects => exact ends subjects rfl
    | error e => exact fun _ failed => by cases failed
  · cases found : subjects.find? (·.identity.externalId = some (.string externalId)) with
    | none => exact tripleMono settlesPure (fun s holds => holds.1) fun _ _ => id
    | some subject =>
        have inside := List.mem_of_find?_eq_some found
        refine tripleBind propagationStill (fun updated s => Standing n (DueOf updated) s ∧
          updated.connectionUid = connection.uid) (tripleMono linkUnlessLinkedPropagates
          (fun s holds => ⟨holds.1,holds.2 subject inside⟩) fun r s ends => ?_) fun updated => ?_
        · cases r with
          | ok updated => exact ends updated rfl
          | error e => exact fun _ failed => by cases failed
        · intro s holds
          exact settlesBind (projectPropagates (dueProjects holds.2)) (fun _ => settlesPure) s holds.1

theorem linkEachPropagates {providerKey : String} {linkClaims : Object} {rest : List ScimConnectionObject} :
    Propagates D hashScimToken n (Standing n Nothing) (ScimLinkService.linkEach providerKey accountId linkClaims rest)
      (Settles n) := by
  induction rest with
  | nil => exact settlesPure
  | cons connection rest ih =>
      unfold ScimLinkService.linkEach
      have one : Propagates D hashScimToken n (Standing n Nothing)
          (ScimLinkService.linkConnection providerKey accountId linkClaims connection) (Settles n) := by
        unfold ScimLinkService.linkConnection
        split
        · exact settlesPure
        · exact linkMatchedPropagates
      exact settlesBind one fun linked => settlesBind ih fun _ => settlesPure

theorem linkAccountPropagates {providerKey : String} {linkClaims : Object} :
    Propagates D hashScimToken n (Standing n Nothing) (ScimLinkService.linkAccount providerKey accountId linkClaims)
      (Settles n) := by
  unfold ScimLinkService.linkAccount
  split
  · exact settlesPure
  · refine settlesBind ?_ fun connections => linkEachPropagates
    exact harmlessPropagates (c := .connections) trivial fun _ => settlesPure

theorem revokeSubjectsPropagates {subjects : List LinkedResource} :
    Propagates D hashScimToken n (Standing n Nothing) (ScimLinkService.revokeSubjects connection subjects) (Settles n) := by
  induction subjects with
  | nil => exact settlesPure
  | cons subject rest ih =>
      unfold ScimLinkService.revokeSubjects
      cases subject.linkedAccountId with
      | none => exact ih
      | some accountId =>
          refine harmlessPropagates (c := .findUser accountId) trivial fun found => ?_
          cases found with
          | none => exact ih
          | some _ => exact settlesBind (updatePropagates fun _ _ left => left.elim) fun _ => ih

theorem revokeConnectionPropagates :
    Propagates D hashScimToken n (Standing n Nothing) (ScimLinkService.revokeConnection connection) (Settles n) := by
  unfold ScimLinkService.revokeConnection
  refine settlesBind (tripleMono listSubjectsPropagates (fun _ => id) fun r s ends subjects same => (ends subjects same).1)
    fun subjects => revokeSubjectsPropagates

theorem onChangePropagates {resource : ScimResource} {memory : Remembered} (pays : ∀ account record, due account record →
      memory.linked = some account ∧ record.connectionUid = connection.uid ∧ record.identity = resource.identity) :
    Propagates D hashScimToken n (Standing n due) (carry connection memory (ScimDirectoryService.onChange resource))
      (Settles n) := by
  unfold ScimDirectoryService.onChange
  rw [askBind,carry]
  exact settlesBind (projectPropagates pays) fun _ => settlesPure

theorem findUserPropagates {id : String} {memory : Remembered} :
    Propagates D hashScimToken n (Standing n Nothing) (carry connection memory (ScimDirectoryService.findUser connection id))
      (Settles n) := by
  unfold ScimDirectoryService.findUser
  rw [askBind,carry]
  refine harmlessPropagates (c := .get .subject id) trivial fun subject => ?_
  cases (subject.map (·.toScimResource)).filter (·.connectionUid = connection.uid) with
  | some found => exact settlesPure
  | none =>
      dsimp only
      rw [askBind,carry]
      exact harmlessPropagates (c := .get .group id) trivial fun group => settlesPure

theorem createPropagates {kind : ScimKind} {name : String} {identity : ScimIdentity} {memory : Remembered} :
    Propagates D hashScimToken n (Standing n Nothing)
      (carry connection memory (ScimDirectoryService.createProvisionedUser connection name kind identity)) (Settles n) := by
  unfold ScimDirectoryService.createProvisionedUser
  rw [askBind,carry]
  refine harmlessPropagates (c := .create kind name ⟨connection.uid,identity⟩) trivial fun created => ?_
  cases created with
  | none => exact settlesPure
  | some r =>
      simp only [Option.map_some]
      rw [carryBind]
      exact settlesBind (onChangePropagates fun _ _ left => left.elim) fun _ => settlesPure

theorem updateUserPropagates {id : String} {identity : ScimIdentity} {memory : Remembered} :
    Propagates D hashScimToken n (Standing n Nothing)
      (carry connection memory (ScimDirectoryService.updateUserSpecs connection id identity)) (Settles n) := by
  unfold ScimDirectoryService.updateUserSpecs
  rw [carryBind]
  refine tripleBind propagationStill (fun out s => Standing n Nothing s ∧ ∀ resource, out.1 = some resource →
    out.2.found = some resource ∧ OwnedBy resource.kind id connection.uid s)
    (tripleMono (propagatesWith (findUserCarries (growingConstant True)) findUserPropagates) (fun _ holds => holds)
      fun r s ends => ?_) fun out => ?_
  · cases r with
    | error e => exact fun _ failed => by cases failed
    | ok out =>
        refine ⟨ends.2 out rfl,fun resource same => ?_⟩
        obtain ⟨found,_,owned⟩ := ends.1 resource out.2 (by rw [← same])
        exact ⟨found,owned⟩
  · obtain ⟨found,last⟩ := out
    cases found with
    | none => exact tripleMono settlesThrow (fun s holds => holds.1) fun _ _ ends => ends
    | some resource =>
        by_cases remembered : last.found = some resource
        · refine tripleMono (P := fun s => Standing n Nothing s ∧ OwnedBy resource.kind id connection.uid s) ?_
            (fun s holds => ⟨holds.1,(holds.2 resource rfl).2⟩) fun _ _ ends => ends
          have stable : Stable (propagationContract hashScimToken n) fun s =>
              Standing n Nothing s ∧ OwnedBy resource.kind id connection.uid s :=
            fun s t moved holds => ⟨standingLater moved holds.1,growingOwned _ _ _ s t moved.1 holds.2⟩
          dsimp only
          rw [askBind,carry,remembered]
          refine tripleAsk (I := linkCalls) (c := .patch resource.kind id resource.identity identity)
            (fun updated s => ∀ r, updated = some r → Standing n (DueOf r) s ∧ r.connectionUid = connection.uid) stable
            (fun s _ holds ledger => ⟨standingCall holds.1 fun same => (by cases same),patchDue ledger holds.2 holds.1⟩)
            fun updated => ?_
          have told : Stable (propagationContract hashScimToken n) fun s => ∀ r, updated = some r →
              Standing n (DueOf r) s ∧ r.connectionUid = connection.uid :=
            fun s t moved told r given => ⟨standingLater moved (told r given).1,(told r given).2⟩
          cases updated with
          | none => exact tripleThrow told fun _ _ _ failed => by cases failed
          | some r =>
              intro s holds
              obtain ⟨stands,own⟩ := holds r rfl
              simp only [Option.map_some,Option.bind_some]
              rw [carryBind]
              exact settlesBind (onChangePropagates (dueProjects own)) (fun _ => settlesPure) s stands
        · exact fun s holds => absurd (holds.2 resource rfl).1 remembered

theorem carryPropagates {p : Scim α} (within : Scoped digest connection p) (memory : Remembered) :
    Propagates D hashScimToken n (Standing n Nothing) (carry connection memory p) (Settles n) := by
  induction within generalizing memory with
  | pure a => exact settlesPure
  | throw e => exact settlesThrow
  | bind first rest ihFirst ihRest =>
      rw [carryBind]
      exact settlesBind (ihFirst memory) fun out => ihRest out.1 out.2
  | now => exact harmlessPropagates (c := .now) (f := fun time => .pure (time,memory)) trivial fun _ => settlesPure
  | list kind => exact harmlessPropagates (c := .list kind) trivial fun _ => settlesPure
  | find id => exact findUserPropagates
  | create kind externalId identity => exact createPropagates
  | update id identity => exact updateUserPropagates

theorem routePropagates {connectionId authorization : String} {command : ScimCommand} :
    Propagates D hashScimToken n (Standing n Nothing) (scimRoute hashScimToken digest connectionId authorization command)
      (Settles n) := by
  unfold scimRoute
  refine settlesBind ?_ fun found => ?_
  · have finding : Propagates D hashScimToken n (Standing n Nothing) (ScimConnectionService.find connectionId)
        fun _ => Standing n Nothing := by
      unfold ScimConnectionService.find
      refine harmlessPropagates (c := .connection connectionId) trivial fun found => ?_
      cases found.filter fun connection => !connection.disabled with
      | none => exact tripleThrow standingStable fun _ stands => stands
      | some connection => exact triplePure standingStable fun _ stands => stands
    refine tripleTryCatch propagationStill (fun _ => Standing n Nothing) ?_ fun e => ?_
    · refine tripleBind propagationStill (fun _ => Standing n Nothing) (tripleMono finding (fun _ => id) fun r s stands => ?_)
        fun connection => triplePure standingStable fun _ stands _ _ => stands
      cases r with
      | ok connection => exact stands
      | error e => exact stands
    · split
      · exact settlesPure
      · exact settlesThrow
  · cases found.filter fun connection =>
        ScimConnectionService.authenticate hashScimToken connection (bearerToken authorization) with
    | none => exact settlesPure
    | some connection => exact settlesBind (carryPropagates command.respondScoped {}) fun _ => settlesPure

theorem approvePropagates : Propagates D hashScimToken n (Standing n Nothing) (Account.approve accountId) (Settles n) := by
  unfold Account.approve
  refine harmlessPropagates (c := .findUser accountId) trivial fun found => ?_
  cases found with
  | none => exact settlesThrow
  | some specs =>
      refine harmlessPropagates (c := .findUser accountId) trivial fun again => ?_
      cases again with
      | none => exact settlesThrow
      | some existing =>
          refine harmlessPropagates (c := .resubmit accountId existing specs) trivial fun updated => ?_
          cases updated with
          | none => exact settlesThrow
          | some _ => exact harmlessPropagates (c := .reconcileUserStatus accountId) (f := .pure) trivial fun _ => settlesPure

theorem operationPropagates (operation : LinkOperation) :
    Propagates D hashScimToken n (Standing n Nothing) (operation.thread hashScimToken digest) fun _ _ => True := by
  have body : Propagates D hashScimToken n (Standing n Nothing) (operation.program hashScimToken digest) (Settles n) := by
    cases operation with
    | login providerKey accountId linkClaims =>
        simp only [LinkOperation.program]
        split
        · exact settlesPure
        · exact settlesBind linkAccountPropagates fun _ => settlesPure
    | scim connectionId authorization command => exact settlesBind routePropagates fun _ => settlesPure
    | reconcile connection =>
        simp only [LinkOperation.program]
        split
        · exact revokeConnectionPropagates
        · exact settlesPure
    | deleted connection => exact revokeConnectionPropagates
    | approve accountId => exact approvePropagates
  unfold LinkOperation.thread
  refine tripleBind propagationStill (fun _ => Standing n Nothing) (tripleMono body (fun _ => id) fun r s ends => ?_) fun _ => ?_
  · cases r with
    | ok a => exact ends a rfl
    | error e => trivial
  · refine tripleAsk (I := linkCalls) (c := .returned) (f := .pure) (fun _ _ => True) standingStable
      (fun s _ stands _ => ⟨standingCall stands fun _ => stands.1,trivial⟩) fun _ => ?_
    exact triplePure (fun _ _ _ => id) fun _ _ => trivial

end Programs

namespace LinkPool
variable {D : ScimDeltas} {hashScimToken digest : String → String} {pool : LinkPool} {n m : Nat} {s t : LinkWorld}

structure Propagated (D : ScimDeltas) (hashScimToken : String → String) (pool : LinkPool) : Prop where
  accounted : Accounted D False hashScimToken pool
  steady : pool.Steady (answerLinks D) LinkCall.awaits fun n => propagationContract hashScimToken n
  authors : ∀ event ∈ pool.state.log, ∀ n, event.author = some n → n < pool.threads.length
  returned : ∀ n, .returned n ∈ pool.state.log → Paid n Nothing pool.state.log

theorem propagationApart (other : n ≠ m) (moved : (propagationContract hashScimToken n).guarantee s t) :
    (propagationContract hashScimToken m).rely s t := by
  obtain ⟨grows,_,⟨extra,same,own⟩,_⟩ := moved
  refine ⟨grows,extra,same,fun event inside theirs => other ?_⟩
  exact Option.some.inj ((own event inside).symm.trans theirs)

theorem propagationIdle (returned : .returned n ∈ s.log → Paid n Nothing s.log) :
    (propagationContract hashScimToken n).guarantee s s :=
  ⟨linkGrowsSelf s,rfl,⟨[],rfl,fun _ inside => by cases inside⟩,returned⟩

theorem editPropagated {f : LinkWorld → LinkWorld} (extra : List LinkEvent) (propagated : Propagated D hashScimToken pool)
    (accounted : Accounted D False hashScimToken (pool.edit f)) (grows : LinkGrows pool.state (f pool.state))
    (log : (f pool.state).log = extra ++ pool.state.log) (nobody : ∀ event ∈ extra, event.author = none) :
    Propagated D hashScimToken (pool.edit f) where
  accounted := accounted
  steady := Pool.steadyEdit (fun _ _ _ _ => propagationTrans) propagated.steady fun n =>
    ⟨grows,extra,log,fun event inside => by simp [nobody event inside]⟩
  authors event inside n own := by
    change event ∈ (f pool.state).log at inside
    rw [log] at inside
    rcases List.mem_append.mp inside with here | before
    · rw [nobody event here] at own
      cases own
    · exact propagated.authors event before n own
  returned n inside := by
    change .returned n ∈ (f pool.state).log at inside
    change Paid n Nothing (f pool.state).log
    rw [log] at inside ⊢
    rcases List.mem_append.mp inside with here | before
    · cases nobody _ here
    · exact paidLater (propagated.returned n before) fun event here => by simp [nobody event here]

theorem startPropagated (propagated : Propagated D hashScimToken pool) (operation : LinkOperation) :
    Propagated D hashScimToken (step D hashScimToken digest pool (.start operation)) := by
  have state := startState D hashScimToken digest pool operation
  have edited : Pool.Steady (answerLinks D) LinkCall.awaits (fun n => propagationContract hashScimToken n)
      (pool.edit fun s => {s with operations := s.operations ++ [operation]}) :=
    Pool.steadyEdit (fun _ _ _ _ => propagationTrans) propagated.steady fun _ =>
      ⟨startedGrows pool.state operation,[],rfl,fun _ inside => by cases inside⟩
  have fresh : ∀ event ∈ pool.state.log, event.author ≠ some pool.threads.length :=
    fun event inside own => absurd (propagated.authors event inside _ own) (Nat.lt_irrefl _)
  have unreturned : .returned pool.threads.length ∉ pool.state.log := fun inside => fresh _ inside rfl
  have instant (c : LinkCall) : c.awaits ≠ false := by simp [everyAwaited]
  have sound : Sound (answerLinks D pool.threads.length) (propagationContract hashScimToken pool.threads.length)
      (operation.thread hashScimToken digest) (fun _ _ => True)
      {pool.state with operations := pool.state.operations ++ [operation]} :=
    operationPropagates operation _ ⟨paidFresh fresh,unreturned⟩
  have idle : (propagationContract hashScimToken pool.threads.length).guarantee
      {pool.state with operations := pool.state.operations ++ [operation]}
      {pool.state with operations := pool.state.operations ++ [operation]} :=
    propagationIdle fun returned => absurd returned unreturned
  have keeps := soundKeeps (fun c never => absurd never (instant c)) idle sound
  have steady := (Pool.steadySpawn (fun _ _ _ _ => propagationTrans) propagationApart edited keeps).1
  refine ⟨stepAccounted propagated.accounted _ False.elim,steady,fun event inside n own => ?_,fun n inside => ?_⟩
  · rw [state] at inside
    exact (propagated.authors event inside n own).trans_le (stepLength pool _).1
  · rw [state] at inside ⊢
    exact propagated.returned n inside

theorem proceedPropagated (propagated : Propagated D hashScimToken pool) (n : Nat) (outcome : PatchOutcome) (time : String) :
    Propagated D hashScimToken (step D hashScimToken digest pool (.proceed n outcome time)) := by
  have accounted : Accounted D False hashScimToken (step D hashScimToken digest pool (.proceed n outcome time)) :=
    stepAccounted propagated.accounted _ False.elim
  have grows : LinkGrows pool.state (facing outcome time pool).state := linkGrowsApart (List.Subset.refl _) rfl rfl rfl rfl
  have steady : (facing outcome time pool).Steady (answerLinks D) LinkCall.awaits fun n => propagationContract hashScimToken n :=
    Pool.steadyEdit (fun _ _ _ _ => propagationTrans) propagated.steady fun _ => ⟨grows,[],rfl,fun _ inside => by cases inside⟩
  rcases Nat.lt_or_ge n pool.threads.length with within | beyond
  · have ready : (facing outcome time pool).Ready (fun n => (propagationContract hashScimToken n).ok) n := by
      unfold Pool.Ready
      split
      · exact facedLedger propagated.accounted.ledger
      · trivial
    have idle : (propagationContract hashScimToken n).guarantee (facing outcome time pool).state (facing outcome time pool).state :=
      propagationIdle (propagated.returned n)
    obtain ⟨stands,_,_,⟨extra,same,own⟩,returned⟩ := Pool.steadyProceed (w := ()) (fun _ _ _ _ => propagationTrans)
      propagationApart (propagationStill _) idle steady ready
    refine ⟨accounted,stands,fun event inside m theirs => ?_,fun m inside => ?_⟩
    · rw [step,Pool.proceedLength]
      rw [step,same] at inside
      rcases List.mem_append.mp inside with here | before
      · cases Option.some.inj (theirs.symm.trans (own event here))
        exact within
      · exact propagated.authors event before m theirs
    · by_cases mine : m = n
      · subst mine
        exact returned inside
      · rw [step,same] at inside ⊢
        have before : .returned m ∈ pool.state.log := by
          rcases List.mem_append.mp inside with here | before
          · exact absurd (Option.some.inj (own _ here)) mine
          · exact before
        refine paidLater (propagated.returned m before) fun event here theirs => mine ?_
        exact Option.some.inj (theirs.symm.trans (own event here))
  · have idle : step D hashScimToken digest pool (.proceed n outcome time) = facing outcome time pool :=
      Pool.proceedBeyond (answerLinks D) LinkCall.awaits beyond
    rw [idle] at accounted ⊢
    exact ⟨accounted,steady,propagated.authors,propagated.returned⟩

theorem stepPropagated (propagated : Propagated D hashScimToken pool) (move : LinkMove) :
    Propagated D hashScimToken (step D hashScimToken digest pool move) := by
  have accounted : Accounted D False hashScimToken (step D hashScimToken digest pool move) :=
    stepAccounted propagated.accounted move False.elim
  cases move with
  | start operation => exact startPropagated propagated operation
  | proceed n outcome time => exact proceedPropagated propagated n outcome time
  | configure id connection => cases connection with
      | none =>
          exact editPropagated (f := fun s => s.configure id none) [] propagated accounted (configuredGrows id none) rfl
            fun _ inside => by cases inside
      | some connection =>
          refine editPropagated (f := fun s => s.configure id (some connection)) [_] propagated accounted
            (configuredGrows id (some connection)) (List.singleton_append).symm fun event inside => ?_
          rw [List.mem_singleton.mp inside]
          rfl
  | editUser accountId edit =>
      exact editPropagated (f := fun s => s.editUser accountId edit) [] propagated accounted
        (linkGrowsApart (List.Subset.refl _) rfl rfl rfl rfl) rfl fun _ inside => by cases inside

theorem runPropagated (moves : List LinkMove) (propagated : Propagated D hashScimToken pool) :
    Propagated D hashScimToken (run D hashScimToken digest moves pool) :=
  everyRunKeeps (Propagated D hashScimToken) (fun _ move propagated => stepPropagated propagated move) propagated moves

theorem beginPropagated : Propagated D hashScimToken begin where
  accounted := beginAccounted
  steady := Pool.steadyEmpty _
  authors _ inside := by cases inside
  returned _ inside := by cases inside

end LinkPool

/- What an operation that has returned has written of a subject that was linked by then, or has linked, it has projected onto the
account since. -/
theorem scimChangesPropagated (D : ScimDeltas) (hashScimToken digest : String → String) (moves : List LinkMove) (n : Nat) :
    let s := (LinkPool.run D hashScimToken digest moves LinkPool.begin).state
    .returned n ∈ s.log → ∀ later event earlier accountId record, s.log = later ++ event :: earlier →
      Owed n earlier event accountId record → ReachesAccount n later accountId record := by
  intro s returned later event earlier accountId record parted owed
  have propagated : LinkPool.Propagated D hashScimToken (LinkPool.run D hashScimToken digest moves LinkPool.begin) :=
    LinkPool.runPropagated moves LinkPool.beginPropagated
  exact (propagated.returned n returned later event earlier accountId record parted owed).resolve_right id

def linksAlice : LinkEvent → Bool
  | .linked n _ accountId record => n = 1 && accountId = "alice" && record.connectionUid = "u1" && record.identity.isActive &&
      record.identity.groups = [⟨"codemowers","org-acme"⟩]
  | _ => false

theorem aliceReached : ∃ values,
    .projected 1 "alice" ("scim-" ++ "u1") values ∈ (LinkPool.run wholeDeltas acmeHash id aliceLinked LinkPool.begin).state.log ∧
      values.active = true ∧ values.groups = [⟨"codemowers","org-acme"⟩] := by
  have found : (LinkPool.run wholeDeltas acmeHash id aliceLinked LinkPool.begin).state.log.any linksAlice = true := by
    decide +kernel
  obtain ⟨event,linked,fits⟩ := List.any_eq_true.mp found
  cases event with
  | linked n name accountId record =>
      simp only [linksAlice,Bool.and_eq_true,decide_eq_true_eq] at fits
      obtain ⟨⟨⟨⟨rfl,rfl⟩,own⟩,on⟩,held⟩ := fits
      obtain ⟨later,earlier,parted⟩ := List.append_of_mem linked
      obtain ⟨values,inside,active,groups⟩ := scimChangesPropagated wholeDeltas acmeHash id aliceLinked 1 (by decide +kernel) later _
        earlier "alice" record parted (.linked ..)
      exact ⟨values,parted ▸ List.mem_append_left _ (own ▸ inside),active.trans on,groups.trans held⟩
  | _ => cases fits

end Passmower
