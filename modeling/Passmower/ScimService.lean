import Passmower.ScimDirectory

/-! ScimService: the user and group requests of a provisioning client. Request bodies are JSON values;
every membership is kept on the subjects, in their `sourceGroups`. -/
namespace Passmower
open JavaScript Resumption Program

abbrev ShownGroup := ScimResource × List (String × Option String)

namespace ScimService

def liftScim {α : Type} : Except ScimFailure α → Scim α
  | .ok value => .pure value
  | .error failure => .throw failure

def refuse {α : Type} (detail scimType : String) : Except ScimFailure α := .error (.scim 400 detail (some scimType))

/- The properties a value shows; reading one of `null` is a TypeError. -/
def properties : Json → Except ScimFailure Object
  | .null => .error .typeError
  | .object fields => .ok fields
  | _ => .ok []

def notFalse : Option Json → Bool
  | some (.bool false) => false
  | _ => true

def iterated : Option Json → Except ScimFailure (List Json)
  | none | some .null => .ok []
  | some (.array items) => .ok items
  | some (.string text) => .ok (text.toList.map fun c => .string (String.singleton c))
  | _ => .error .typeError

def resourceId (digest : String → String) (kind connectionId externalId : String) : String :=
  "scim-" ++ kind ++ "-" ++ digest (connectionId ++ "\x00" ++ externalId)

def emailsFrom (emails : Option Json) : List ScimEmail :=
  ((emails.map items).getD []).filterMap fun email => match email with
    | .object fields => match Object.get fields "value" with
        | some (.string address) => some ⟨address,match Object.get fields "primary" with
            | some (.bool true) => true
            | _ => false⟩
        | _ => none
    | _ => none

def required (key : String) : Json → Except ScimFailure (Object × String)
  | .object fields => match Object.get fields key with
      | some (.string text) =>
          if trim text ≠ "" then .ok (fields,text) else refuse s!"{key} is required" "invalidValue"
      | _ => refuse s!"{key} is required" "invalidValue"
  | _ => refuse s!"{key} is required" "invalidValue"

def externalIdOf (resource : Object) (fallback : String) : String :=
  if isTruthyOr (resource.get "externalId") then textOf (resource.get "externalId") else fallback

def displayNameOf (resource : Object) : Option Json :=
  given (resource.get "displayName") <|> (resource.get "name").bind fun name => match name with
    | .object fields => Object.get fields "formatted"
    | _ => none

def now : Scim String := ask (I := scim) .now

section Service
variable (digest : String → String) (connection : ScimConnection)

def listUsers : Scim (List ScimResource) := do
  let resources ← ScimDirectoryService.listUsers connection
  .pure (resources.filter (·.kind ≠ .group))

def listGroups : Scim (List ScimResource) := do
  let resources ← ScimDirectoryService.listUsers connection
  .pure (resources.filter fun resource => resource.kind = .group && resource.identity.isActive)

def findUser (id : String) : Scim ScimResource := do
  match (← ScimDirectoryService.findUser connection id).filter (·.kind ≠ .group) with
  | none => .throw (.scim 404 s!"User {id} was not found" none)
  | some account => .pure account

def findGroup (id : String) : Scim ScimResource := do
  match (← ScimDirectoryService.findUser connection id).filter
      (fun account => account.kind = .group && account.identity.isActive) with
  | none => .throw (.scim 404 s!"Group {id} was not found" none)
  | some account => .pure account

def projectGroups (identity : ScimIdentity) : ScimIdentity :=
  let granted := identity.isActive && (connection.grantMode = .allUsers || !identity.sourceGroups.isEmpty)
  {identity with groups := if granted then [connection.group] else []}

def userIdentity (resource : Object) (userName : String) (externalId : Option Json) (createdAt : String)
    (sourceGroups : List String) : Scim ScimIdentity := do
  let displayName := displayNameOf resource
  let lastModified ← now
  .pure {
    resourceType := "User"
    externalId := externalId
    userName := some userName
    displayName := if isTruthyOr displayName then some (textOf displayName) else none
    active := some (notFalse (resource.get "active"))
    emails := emailsFrom (resource.get "emails")
    sourceGroups := sourceGroups
    createdAt := createdAt
    lastModified := lastModified}

def createUser (resource : Json) : Scim ScimResource := do
  let (fields,userName) ← liftScim (required "userName" resource)
  let externalId := externalIdOf fields userName
  let users ← listUsers connection
  if users.any (fun account => account.identity.externalId.bind Json.string? = some externalId ||
      account.identity.userName = some userName) then
    .throw (.scim 409 "A user with that userName or externalId already exists" (some "uniqueness"))
  else do
    let createdAt ← now
    let identity ← userIdentity fields userName (some (.string externalId)) createdAt []
    match ← ScimDirectoryService.createProvisionedUser connection
        (resourceId digest "u" connection.uid externalId) .subject (projectGroups connection identity) with
    | none => .throw (.scim 409 "The provisioned user identifier already exists" (some "uniqueness"))
    | some account => .pure account

def replaceUser (id : String) (resource : Json) : Scim ScimResource := do
  let account ← findUser connection id
  let (fields,userName) ← liftScim (required "userName" resource)
  let previous := account.identity
  let identity ← userIdentity fields userName (given (fields.get "externalId") <|> previous.externalId)
    previous.createdAt previous.sourceGroups
  ScimDirectoryService.updateUserSpecs connection id (projectGroups connection identity)

def patchableUserValues (value : Object) (identity : ScimIdentity) : ScimIdentity :=
  {identity with
    userName := match value.get "userName" with
      | some userName => some (textOf (some userName))
      | none => identity.userName
    displayName := match value.get "displayName" with
      | some displayName => some (textOf (some displayName))
      | none => identity.displayName
    externalId := match value.get "externalId" with
      | some externalId => some (.string (textOf (some externalId)))
      | none => identity.externalId
    active := match value.get "active" with
      | some active => some (notFalse (some active))
      | none => identity.active
    emails := match value.get "emails" with
      | some emails => emailsFrom (some emails)
      | none => identity.emails}

/- `/^emails\[[^\]]*]\.value$/` -/
def isEmailValuePath (path : String) : Bool :=
  path.startsWith "emails[" && (path.toList.drop 7).dropWhile (· != ']') = "].value".toList

def operator (operation : Object) : Except ScimFailure String :=
  let op := (if isTruthyOr (operation.get "op") then textOf (operation.get "op") else "").toLower
  let asked := textOf (operation.get "op")
  if op ∈ ["add","replace","remove"] then .ok op
  else refuse s!"Unsupported PATCH operation {asked}" "invalidSyntax"

/- `operation.path?.…`: only a text has the method that is called next. -/
def pathText (operation : Object) : Except ScimFailure (Option String) := match operation.get "path" with
  | none | some .null => .ok none
  | some (.string path) => .ok (some path)
  | _ => .error .typeError

def objectValue (operation : Object) : Option Object := match operation.get "value" with
  | some (.object fields) => some fields
  | some (.array _) => some []
  | _ => none

def patchUserPath (operation : Object) (op : String) (path : Option String) (identity : ScimIdentity) :
    Except ScimFailure ScimIdentity :=
  let value := operation.get "value"
  let asked := textOf (operation.get "path")
  let unsupported := refuse s!"Unsupported User PATCH path {asked}" "invalidPath"
  match path with
  | some "active" => .ok {identity with active := some (if op = "remove" then false else notFalse value)}
  | some "username" =>
      if op = "remove" then .error (.scim 400 "userName cannot be removed" (some "mutability"))
      else .ok {identity with userName := some (textOf value)}
  | some "displayname" => .ok {identity with displayName := if op = "remove" then none else some (textOf value)}
  | some "externalid" =>
      .ok {identity with externalId := if op = "remove" then none else some (.string (textOf value))}
  | some path =>
      if path.startsWith "emails" then
        if op = "remove" then .ok {identity with emails := []}
        else if path = "emails" then .ok {identity with emails := emailsFrom value}
        else match isEmailValuePath path, value with
          | true, some (.string address) => .ok {identity with emails := [⟨address,true⟩]}
          | _, _ => unsupported
      else unsupported
  | none => unsupported

def patchUserOperation (operation : Json) (identity : ScimIdentity) : Except ScimFailure ScimIdentity := do
  let operation ← properties operation
  let op ← operator operation
  let path := (← pathText operation).map String.toLower
  match path.filter (· ≠ ""), objectValue operation with
  | none, some value => .ok (patchableUserValues value identity)
  | _, _ => patchUserPath operation op path identity

def patchUser (id : String) (operations : Option Json) : Scim ScimResource := do
  let account ← findUser connection id
  let operations ← liftScim (iterated operations)
  let identity ← liftScim (operations.foldlM (fun identity operation => patchUserOperation operation identity)
    account.identity)
  let lastModified ← now
  ScimDirectoryService.updateUserSpecs connection id
    (projectGroups connection {identity with lastModified := lastModified})

def deactivateUser (id : String) : Scim ScimResource := patchUser connection id
  (some (.array [.object [("op",.string "replace"),("path",.string "active"),("value",.bool false)]]))

def memberId (member : Json) : Except ScimFailure String := do
  let fields ← properties member
  .ok (textOf (fields.get "value"))

def memberIds (members : List Json) : Except ScimFailure (List String) := members.mapM memberId

def members (group : ScimResource) (users : List ScimResource) : List ScimResource :=
  users.filter (·.identity.sourceGroups.contains group.accountId)

def moved (group : String) (wants : Bool) (identity : ScimIdentity) : Option ScimIdentity :=
  let current := identity.sourceGroups
  let has := current.contains group
  if wants && !has then some (projectGroups connection {identity with sourceGroups := current ++ [group]})
  else if !wants && has then
    some (projectGroups connection {identity with sourceGroups := current.filter (· != group)})
  else none

def moveMembers (group : String) (desired : List String) : List ScimResource → Scim Unit
  | [] => .pure ()
  | user :: rest => match moved connection group (desired.contains user.accountId) user.identity with
      | none => moveMembers group desired rest
      | some identity => do
          let lastModified ← now
          let _ ← ScimDirectoryService.updateUserSpecs connection user.accountId
            {identity with lastModified := lastModified}
          moveMembers group desired rest

def replaceMembersOf (group : String) (desired : List String) (users : List ScimResource) : Scim Unit :=
  match desired.find? (fun id => !users.any (·.accountId = id)) with
  | some unknown => .throw (.scim 400 s!"Unknown member {unknown}" (some "invalidValue"))
  | none => moveMembers connection group desired users

def replaceMembers (group : ScimResource) (members : Json) : Scim Unit := do
  let desired ← liftScim (memberIds (items members))
  let users ← listUsers connection
  replaceMembersOf connection group.accountId desired users

def addMembers (group : ScimResource) (added : Json) : Scim Unit := do
  let users ← listUsers connection
  let existing := (members group users).map (·.accountId)
  let added ← liftScim (match added with
    | .array added => memberIds added
    | _ => .error .typeError)
  replaceMembersOf connection group.accountId (existing ++ added) users

def removeMembers (group : ScimResource) (ids : List String) : Scim Unit := do
  let users ← listUsers connection
  let existing := (members group users).map (·.accountId)
  replaceMembersOf connection group.accountId (existing.filter (· ∉ ids)) users

def groupResource (account : ScimResource) : Scim ShownGroup := do
  let users ← listUsers connection
  .pure (account,(members account users).map fun user => (user.accountId,user.identity.userName))

/- The first member no listed user is; `find` returns a falsy one too, which is then taken for none. Members are only read
where there are users to compare them with. -/
def unknownMember (users : List ScimResource) : List Json → Except ScimFailure (Option String)
  | [] => .ok none
  | member :: rest =>
      if users.isEmpty && !member.isTruthy then .ok none
      else do
        let id ← memberId member
        if users.any (·.accountId = id) then unknownMember users rest
        else .ok (if member.isTruthy then some id else none)

def knownMembers (resource : Object) : Scim Unit := match resource.get "members" with
  | some (.array listed) => do
      let users ← listUsers connection
      match ← liftScim (unknownMember users listed) with
      | some unknown => .throw (.scim 400 s!"Unknown member {unknown}" (some "invalidValue"))
      | none => .pure ()
  | _ => .pure ()

def membersOf (resource : Object) : Json := (given (resource.get "members")).getD (.array [])

def createGroup (resource : Json) : Scim ShownGroup := do
  let (fields,displayName) ← liftScim (required "displayName" resource)
  let externalId := externalIdOf fields displayName
  knownMembers connection fields
  let groups ← listGroups connection
  if groups.any (fun account => account.identity.externalId.bind Json.string? = some externalId ||
      account.identity.displayName = some displayName) then
    .throw (.scim 409 "A group with that displayName or externalId already exists" (some "uniqueness"))
  else do
    let id := resourceId digest "g" connection.uid externalId
    -- a deleted group is still there under its name, and is taken up again
    match ← ScimDirectoryService.findUser connection id with
    | some tombstoned => do
        let lastModified ← now
        let _ ← ScimDirectoryService.updateUserSpecs connection id {
          resourceType := "Group", externalId := some (.string externalId), displayName := some displayName,
          createdAt := tombstoned.identity.createdAt, lastModified := lastModified}
        replaceMembers connection tombstoned (membersOf fields)
        groupResource connection (← findGroup connection id)
    | none => do
        let createdAt ← now
        match ← ScimDirectoryService.createProvisionedUser connection id .group {
            resourceType := "Group", externalId := some (.string externalId), displayName := some displayName,
            createdAt := createdAt, lastModified := createdAt} with
        | none => .throw (.scim 409 "The provisioned group identifier already exists" (some "uniqueness"))
        | some account => do
            if (items (membersOf fields)).isEmpty then .pure ()
            else replaceMembers connection account (membersOf fields)
            groupResource connection (← findGroup connection id)

def replaceGroup (id : String) (resource : Json) : Scim ShownGroup := do
  let account ← findGroup connection id
  let (fields,displayName) ← liftScim (required "displayName" resource)
  let lastModified ← now
  let _ ← ScimDirectoryService.updateUserSpecs connection id {account.identity with
    displayName := some displayName
    externalId := given (fields.get "externalId") <|> account.identity.externalId
    lastModified := lastModified}
  replaceMembers connection account (membersOf fields)
  groupResource connection (← findGroup connection id)

def renameGroup (id : String) (account : ScimResource) (displayName : String) : Scim ScimResource := do
  let lastModified ← now
  ScimDirectoryService.updateUserSpecs connection id
    {account.identity with displayName := some displayName, lastModified := lastModified}

/- `/^members\[value eq "([^"]+)"\]$/i` -/
def memberFilter (path : String) : Option String :=
  let start := "members[value eq \""
  let rest := path.toList.drop start.length
  let id := rest.takeWhile (· != '"')
  if (path.toList.take start.length).map Char.toLower = start.toList && !id.isEmpty &&
      rest.drop id.length = "\"]".toList then some (String.ofList id) else none

def patchGroupName (id : String) (account : ScimResource) (value : Object) : Scim ScimResource :=
  match value.get "displayName" with
  | some displayName => renameGroup connection id account (textOf (some displayName))
  | none => .pure account

def patchGroupValue (id : String) (account : ScimResource) (value : Object) : Scim ScimResource := do
  let account ← patchGroupName connection id account value
  match value.get "members" with
  | some listed => do
      replaceMembers connection account ((given (some listed)).getD (.array []))
      .pure account
  | none => .pure account

def patchMembers (account : ScimResource) (op : String) (value : Json) : Scim Unit :=
  if op = "replace" then replaceMembers connection account value
  else if op = "add" then addMembers connection account value
  else replaceMembers connection account (.array [])

def patchGroupPath (id : String) (account : ScimResource) (operation : Object) (op : String)
    (path : Option String) : Scim ScimResource :=
  let value := (given (operation.get "value")).getD (.array [])
  let asked := textOf (operation.get "path")
  let unsupported := liftScim (refuse s!"Unsupported Group PATCH path {asked}" "invalidPath")
  match path.map String.toLower with
  | some "displayname" =>
      if op = "remove" then .throw (.scim 400 "displayName cannot be removed" (some "mutability"))
      else renameGroup connection id account (textOf (operation.get "value"))
  | some "members" => do
      patchMembers connection account op value
      .pure account
  | _ => match path.bind memberFilter with
      | some member =>
          if op = "remove" then do
            removeMembers connection account [member]
            .pure account
          else unsupported
      | none => unsupported

def patchGroupOperation (id : String) (account : ScimResource) (operation : Json) : Scim ScimResource := do
  let operation ← liftScim (properties operation)
  let op ← liftScim (operator operation)
  match isTruthyOr (operation.get "path"), objectValue operation with
  | false, some value =>
      if (value.get "displayName").isNone && (value.get "members").isNone then
        liftScim (refuse "Unsupported Group PATCH value" "invalidValue")
      else patchGroupValue connection id account value
  | _, _ => do
      let path ← liftScim (pathText operation)
      patchGroupPath connection id account operation op path

def patchGroupOperations (id : String) (account : ScimResource) : List Json → Scim ScimResource
  | [] => .pure account
  | operation :: rest => do
      let account ← patchGroupOperation connection id account operation
      patchGroupOperations id account rest

def patchGroup (id : String) (operations : Option Json) : Scim ShownGroup := do
  let account ← findGroup connection id
  let operations ← liftScim (iterated operations)
  let _ ← patchGroupOperations connection id account operations
  groupResource connection (← findGroup connection id)

def deleteGroup (id : String) : Scim Unit := do
  let account ← findGroup connection id
  replaceMembers connection account (.array [])
  let lastModified ← now
  let _ ← ScimDirectoryService.updateUserSpecs connection id
    {account.identity with active := some false, lastModified := lastModified}
  .pure ()

end Service

end ScimService

end Passmower
