import Houndfe.Base.JsonText
import Houndfe.Cash.Effects

/-! A request of the cash register takes effect once under its key. The receipt of the key
tells requests apart by the hash of their canonical text. -/

namespace Houndfe.Cash

open Transactions Transition

/-! ### The text of a request -/

def CashHandoverKind.text : CashHandoverKind → String
  | .withdrawal => "WITHDRAWAL"
  | .float => "FLOAT"

def ManualKind.text : ManualKind → String
  | .cashIn => "CASH_IN"
  | .cashOut => "CASH_OUT"

def CashCountLine.toJson (line : CashCountLine) : Json :=
  .object [("channelKey", .string line.channelKey), ("amountCents", .number line.amountCents)]

def CashDenominationLine.toJson (line : CashDenominationLine) : Json :=
  .object [("denominationCents", .number line.denominationCents),
    ("quantity", .number line.quantity)]

/-- A field that may be left out. -/
def optionalEntry (key : String) (value : Option Json) : List (String × Json) :=
  value.toList.map fun value => (key, value)

def countEntries (command : Adapter.CountCommand) : List (String × Json) :=
  [("sessionId", .string command.sessionId),
    ("lines", .array (command.lines.map CashCountLine.toJson))] ++
    optionalEntry "denominations" (command.denominations.map fun lines =>
      .array (lines.map CashDenominationLine.toJson)) ++
    optionalEntry "notes" (command.notes.map .string)

def CashCommand.entries : CashCommand → List (String × Json)
  | .createRegister name => [("kind", .string "CREATE_REGISTER"), ("name", .string name)]
  | .updateRegister id name isActive =>
      [("kind", .string "UPDATE_REGISTER"), ("id", .string id)] ++
        optionalEntry "name" (name.map .string) ++ optionalEntry "isActive" (isActive.map .bool)
  | .openSession command =>
      [("kind", .string "OPEN_SESSION"), ("registerId", .string command.registerId),
        ("openingCents", .number command.openingCents)] ++
        optionalEntry "openingHandoverId" (command.openingHandoverId.map .string) ++
        [("openingConfirmed", .bool command.openingConfirmed)]
  | .manualMovement command =>
      [("kind", .string command.kind.text), ("sessionId", .string command.sessionId),
        ("amountCents", .number command.amountCents), ("reason", .string command.reason)]
  | .startCount sessionId => [("kind", .string "START_COUNT"), ("sessionId", .string sessionId)]
  | .declare command => ("kind", .string "DECLARE") :: countEntries command
  | .annotateDeclaration sessionId notes =>
      [("kind", .string "ANNOTATE_DECLARATION"), ("sessionId", .string sessionId),
        ("notes", .string notes)]
  | .verify command => ("kind", .string "VERIFY") :: countEntries command
  | .createHandover command =>
      [("kind", .string "CREATE_HANDOVER"), ("sessionId", .string command.sessionId),
        ("handoverKind", .string command.handoverKind.text),
        ("recipientUserId", .string command.recipientUserId),
        ("declaredCents", .number command.declaredCents)] ++
        optionalEntry "notes" (command.notes.map .string)
  | .receiveHandover command =>
      [("kind", .string "RECEIVE_HANDOVER"), ("id", .string command.id),
        ("receivedCents", .number command.receivedCents)] ++
        optionalEntry "notes" (command.notes.map .string)
  | .releaseDrawer sessionId =>
      [("kind", .string "RELEASE_DRAWER"), ("sessionId", .string sessionId)]
  | .close command =>
      [("kind", .string "CLOSE"), ("sessionId", .string command.sessionId)] ++
        optionalEntry "notes" (command.notes.map .string)

def CashCommand.toJson (command : CashCommand) : Json :=
  .object command.entries

theorem wellformed_countLines (lines : List CashCountLine) :
    Json.WellformedElements (lines.map CashCountLine.toJson) := by
  simp [Json.Wellformed, Json.wellformedElements_iff, CashCountLine.toJson,
    Json.WellformedEntries]

theorem wellformed_denominationLines (lines : List CashDenominationLine) :
    Json.WellformedElements (lines.map CashDenominationLine.toJson) := by
  simp [Json.Wellformed, Json.wellformedElements_iff, CashDenominationLine.toJson,
    Json.WellformedEntries]

/-- No command holds a field twice. -/
theorem wellformed_toJson (command : CashCommand) : command.toJson.Wellformed := by
  have hKeys : (command.entries.map Prod.fst).Nodup := by
    cases command with
    | updateRegister id name isActive =>
        cases name <;> cases isActive <;> simp [CashCommand.entries, optionalEntry]
    | openSession command =>
        obtain ⟨_, _, openingHandoverId, _⟩ := command
        cases openingHandoverId <;> simp [CashCommand.entries, optionalEntry]
    | declare command =>
        obtain ⟨_, _, denominations, notes⟩ := command
        cases denominations <;> cases notes <;>
          simp [CashCommand.entries, countEntries, optionalEntry]
    | verify command =>
        obtain ⟨_, _, denominations, notes⟩ := command
        cases denominations <;> cases notes <;>
          simp [CashCommand.entries, countEntries, optionalEntry]
    | createHandover command =>
        obtain ⟨_, _, _, _, notes⟩ := command
        cases notes <;> simp [CashCommand.entries, optionalEntry]
    | receiveHandover command =>
        obtain ⟨_, _, notes⟩ := command
        cases notes <;> simp [CashCommand.entries, optionalEntry]
    | close command =>
        obtain ⟨_, notes⟩ := command
        cases notes <;> simp [CashCommand.entries, optionalEntry]
    | _ => simp [CashCommand.entries]
  have hValues : ∀ entry ∈ command.entries, entry.2.Wellformed := by
    cases command <;>
      simp [CashCommand.entries, countEntries, optionalEntry, or_imp, forall_and, Json.Wellformed,
        wellformed_countLines, wellformed_denominationLines]
  exact ⟨hKeys, (Json.wellformedEntries_iff _).mpr hValues⟩

/-- A request as it arrives: an actor and a body that holds a command, its keys in any order. -/
structure CashMessage where
  actor : CashActor
  command : CashCommand
  body : Json
  idempotencyKey : String
  carries : Json.Same body command.toJson

def hashed (actorUserId : String) (command : Json) : Json :=
  .object [("actorUserId", .string actorUserId), ("command", command)]

/-- The text that the hash is taken of. -/
def requestText (actorUserId : String) (command : Json) : String :=
  (hashed actorUserId command).canonicalize.stringify

def hashRequest (sha256 : String → String) (actorUserId : String) (command : Json) : String :=
  sha256 (requestText actorUserId command)

def CashMessage.text (message : CashMessage) : String :=
  requestText message.actor.userId message.body

def CashMessage.request (sha256 : String → String) (message : CashMessage) : CashRequest :=
  ⟨message.actor, message.command, message.idempotencyKey,
    hashRequest sha256 message.actor.userId message.body⟩

/-- The same actor sends the same body, up to the order of its keys. -/
def CashMessage.Identical (first later : CashMessage) : Prop :=
  later.actor.userId = first.actor.userId ∧ Json.Same later.body first.body

/-- The hash does not confuse these two messages. -/
def NoCollision (sha256 : String → String) (first later : CashMessage) : Prop :=
  sha256 later.text = sha256 first.text → later.text = first.text

theorem canonicalize_hashed (actorUserId : String) (command : Json) :
    (hashed actorUserId command).canonicalize = hashed actorUserId command.canonicalize := by
  have hOrder : "actorUserId" ≤ "command" := by decide
  simp [hashed, Json.canonicalize, Json.canonicalizeEntries, Json.byKey, List.insertionSort,
    hOrder]

/-- The text tells apart what is not identical. -/
theorem text_eq_iff (first later : CashMessage) :
    later.text = first.text ↔ first.Identical later := by
  have hBody : later.body.Wellformed :=
    later.carries.wellformed_iff.mpr (wellformed_toJson later.command)
  rw [CashMessage.Identical, ← Json.canonicalize_eq_iff hBody]
  constructor
  · intro h
    have hSame := Json.stringify_injective h
    rw [canonicalize_hashed, canonicalize_hashed] at hSame
    simpa [hashed] using hSame
  · rintro ⟨hActor, hBody⟩
    rw [CashMessage.text, CashMessage.text, requestText, requestText, canonicalize_hashed,
      canonicalize_hashed, hActor, hBody]

theorem identical_of_hash {sha256 : String → String} {first later : CashMessage}
    (h : (later.request sha256).requestHash = (first.request sha256).requestHash)
    (hApart : NoCollision sha256 first later) : first.Identical later :=
  (text_eq_iff first later).mp (hApart h)

theorem CashMessage.Identical.hash_eq {sha256 : String → String} {first later : CashMessage}
    (h : first.Identical later) :
    (later.request sha256).requestHash = (first.request sha256).requestHash :=
  congrArg sha256 ((text_eq_iff first later).mpr h)

/-! ### The receipt of a key -/

theorem CashChange.commands_eq {tables after : CashTables} (h : CashChange tables after) :
    after.commands = tables.commands := by
  cases h <;> rfl

section

variable {surroundings : Surroundings} {request : CashRequest} {tables after : CashTables}
  {key : String} {answer : CashDocument}

theorem replay_eq_ok {stored : CommandRow} :
    replay surroundings request stored = .ok answer ↔
      stored.requestHash = request.requestHash ∧
        assertActiveMember (surroundings.standing request.actor.userId) = .ok () ∧
        recheckReplayAbility surroundings.seen request.actor request.command stored.response =
          .ok () ∧ stored.response = answer := by
  simp only [replay, bind_eq_ok, throwIf_eq_ok, pure_eq_ok, exists_const, not_not]
  constructor
  · rintro ⟨hHash, _, hMember, _, hAbility, hSame⟩
    exact ⟨hHash, hMember, hAbility, hSame⟩
  · rintro ⟨hHash, hMember, hAbility, hSame⟩
    exact ⟨hHash, (), hMember, (), hAbility, hSame⟩

/-- No transaction touches a receipt that is there. -/
theorem receipt_of_serves {served : CashTx CashEnding × CashDocument} {row : CommandRow}
    (h : Serves CashBody tables served after) (hFound : findCommand tables key = some row) :
    findCommand after key = some row := by
  obtain ⟨body, answer⟩ := served
  obtain ⟨hBody, hServe⟩ := h
  cases hBody with
  | request surroundings loads request =>
      obtain ⟨_, _, _, ⟨_, _, _, hSame⟩ | ⟨_, middle, hRun, hInsert⟩⟩ := serve_execute.mp hServe
      · have hAfter : after = tables := hSame
        rwa [hAfter]
      · obtain ⟨commands, hCommands, hAfter⟩ := insertCommand_eq_ok.mp hInsert
        rw [runCommand, serve_check, bind_eq_ok] at hRun
        obtain ⟨_, _, hDispatch⟩ := hRun
        have hKept := (dispatch_change loads hDispatch).commands_eq
        have hMiddle : middle.commands.find key = some row := hKept ▸ hFound
        have hAfter : { middle with commands } = after := hAfter
        subst hAfter
        exact Keyed.Rows.find_insert_of_find hCommands hMiddle
  | payments surroundings loads input =>
      rw [findCommand, (recordPayments_change loads hServe).commands_eq]
      exact hFound
  | refund surroundings loads input =>
      rw [findCommand, (recordRefund_change loads hServe).commands_eq]
      exact hFound

/-- A request that commits leaves the receipt of its answer, or found it. -/
theorem receipt_of_execute
    (h : serve (execute surroundings request) tables = .ok (after, answer))
    (hKey : requireIdempotencyKey request.idempotencyKey = .ok key) :
    ∃ stored, findCommand after key = some stored ∧ stored.requestHash = request.requestHash ∧
      stored.response = answer := by
  obtain ⟨key', hKey', _, ⟨stored, hFound, hReplay, hSame⟩ | ⟨_, middle, _, hInsert⟩⟩ :=
    serve_execute.mp h
  · obtain rfl := Except.ok.inj (hKey.symm.trans hKey')
    obtain ⟨hHash, _, _, hAnswer⟩ := replay_eq_ok.mp hReplay
    have hAfter : after = tables := hSame
    exact ⟨stored, hAfter ▸ hFound, hHash, hAnswer⟩
  · obtain rfl := Except.ok.inj (hKey.symm.trans hKey')
    obtain ⟨commands, hCommands, hAfter⟩ := insertCommand_eq_ok.mp hInsert
    have hFound : commands.find key = some (receipt key request answer) := by
      rw [Keyed.Rows.find_insert hCommands]
      exact if_pos rfl
    have hAfter : { middle with commands } = after := hAfter
    subst hAfter
    exact ⟨_, hFound, rfl, rfl⟩

/-- After a request was served, its receipt is there for good. -/
theorem receipt_of_serial {served : List (CashTx CashEnding × CashDocument)}
    (run : Runs (Serves CashBody) tables served after)
    (h : (execute surroundings request, answer) ∈ served)
    (hKey : requireIdempotencyKey request.idempotencyKey = .ok key) :
    ∃ stored, findCommand after key = some stored ∧ stored.requestHash = request.requestHash ∧
      stored.response = answer := by
  induction run with
  | zero => cases h
  | succ prior last ih =>
      rcases List.mem_append.mp h with hEarlier | hLast
      · obtain ⟨stored, hFound, hStored⟩ := ih hEarlier
        exact ⟨stored, receipt_of_serves last hFound, hStored⟩
      · obtain rfl := List.mem_singleton.mp hLast
        exact receipt_of_execute last.2 hKey

/-- A request whose key has a receipt is served from the receipt alone. -/
theorem serve_execute_of_receipt {stored : CommandRow}
    (hKey : requireIdempotencyKey request.idempotencyKey = .ok key)
    (hAbility : assertAbility request.actor (cashCommandAbility request.command) none = .ok ())
    (hFound : findCommand tables key = some stored) :
    serve (execute surroundings request) tables =
      (replay surroundings request stored).map fun response => (tables, response) := by
  have hBind : ∀ {α β : Type} (a : α) (k : α → Except DomainError β), Except.ok a >>= k = k a :=
    fun _ _ => rfl
  simp only [execute, serve_check, serve_lockKey, serve_query, hKey, hAbility, hBind, hFound]
  cases replay surroundings request stored <;> rfl

/-- Nothing but a receipt of the key stands between a request and its command. -/
theorem serve_execute_of_free (hLoads : surroundings.Loads)
    (hKey : requireIdempotencyKey request.idempotencyKey = .ok key)
    (hFree : findCommand tables key = none) :
    (∃ after, serve (execute surroundings request) tables = .ok (after, answer)) ↔
      assertAbility request.actor (cashCommandAbility request.command) none = .ok () ∧
        ∃ after, serve (runCommand surroundings request.actor request.command) tables =
          .ok (after, answer) := by
  constructor
  · rintro ⟨after, h⟩
    obtain ⟨key', hKey', hAbility, ⟨_, hFound, _⟩ | ⟨_, middle, hRun, _⟩⟩ := serve_execute.mp h
    · obtain rfl := Except.ok.inj (hKey.symm.trans hKey')
      rw [hFree] at hFound
      cases hFound
    · exact ⟨hAbility, middle, hRun⟩
  · rintro ⟨hAbility, middle, hRun⟩
    have hKept : middle.commands = tables.commands := by
      rw [runCommand, serve_check, bind_eq_ok] at hRun
      obtain ⟨_, _, hDispatch⟩ := hRun
      exact (dispatch_change hLoads hDispatch).commands_eq
    have hNone : middle.commands.find (receipt key request answer).key = none := by
      rw [hKept]
      exact hFree
    obtain ⟨commands, hCommands⟩ := Keyed.Rows.exists_insert hNone
    exact ⟨{ middle with commands }, serve_execute.mpr ⟨key, hKey, hAbility, Or.inr
      ⟨hFree, middle, hRun, insertCommand_eq_ok.mpr ⟨commands, hCommands, rfl⟩⟩⟩⟩

end

/-! ### Once for each key -/

/-- The actor may still have the stored answer: a revocation wins over a replay. -/
def Entitled (surroundings : Surroundings) (message : CashMessage) (answer : CashDocument) : Prop :=
  assertAbility message.actor (cashCommandAbility message.command) none = .ok () ∧
    assertActiveMember (surroundings.standing message.actor.userId) = .ok () ∧
    recheckReplayAbility surroundings.seen message.actor message.command answer = .ok ()

section

variable {Tid : Type} [DecidableEq Tid]

/-- What becomes of the later requests with the key of one that committed. -/
structure AnsweredFor (sha256 : String → String) (key : String) (first : CashMessage)
    (answer : CashDocument) (system : System Tid CashLock CashTables DomainError CashDocument) :
    Prop where
  once : ∀ surroundings later tid answer' after,
    requireIdempotencyKey later.idempotencyKey = .ok key →
    Step CashBody system (.commit tid (execute surroundings (later.request sha256)) answer')
      after →
    after.tables = system.tables ∧ answer' = answer ∧
      (NoCollision sha256 first later → first.Identical later)
  replayed : ∀ surroundings later, requireIdempotencyKey later.idempotencyKey = .ok key →
    first.Identical later → Entitled surroundings later answer →
    serve (execute surroundings (later.request sha256)) system.tables =
      .ok (system.tables, answer)
  rejected : ∀ surroundings later, requireIdempotencyKey later.idempotencyKey = .ok key →
    ¬ first.Identical later → NoCollision sha256 first later →
    assertAbility later.actor (cashCommandAbility later.command) none = .ok () →
    serve (execute surroundings (later.request sha256)) system.tables = .error idempotencyConflict

/-- What a request that fails leaves behind: the tables as they were, and no lock; while its key
has no receipt, it can be sent again as if for the first time. -/
structure LeavesNothing (system : System Tid CashLock CashTables DomainError CashDocument) :
    Prop where
  unchanged : ∀ event after, Step CashBody system event after →
    (∀ tid body answer, event ≠ .commit tid body answer) → after.tables = system.tables
  released : ∀ tid after, Step CashBody system (.rollback tid) after → after.flights tid = none
  retried : ∀ surroundings request key answer, surroundings.Loads →
    requireIdempotencyKey request.idempotencyKey = .ok key →
    findCommand system.tables key = none →
    ((∃ after, serve (execute surroundings request) system.tables = .ok (after, answer)) ↔
      assertAbility request.actor (cashCommandAbility request.command) none = .ok () ∧
        ∃ after, serve (runCommand surroundings request.actor request.command) system.tables =
          .ok (after, answer))

variable {system : System Tid CashLock CashTables DomainError CashDocument}

theorem once_of_receipt {sha256 : String → String} {key : String} {first later : CashMessage}
    {answer answer' : CashDocument} {stored : CommandRow} {surroundings : Surroundings} {tid : Tid}
    {after : System Tid CashLock CashTables DomainError CashDocument}
    (hSound : system.Sound CashBody cashProtection)
    (hFound : findCommand system.tables key = some stored)
    (hHash : stored.requestHash = (first.request sha256).requestHash)
    (hAnswer : stored.response = answer)
    (hKey : requireIdempotencyKey later.idempotencyKey = .ok key)
    (hStep : Step CashBody system (.commit tid (execute surroundings (later.request sha256)) answer')
      after) :
    after.tables = system.tables ∧ answer' = answer ∧
      (NoCollision sha256 first later → first.Identical later) := by
  obtain ⟨_, hRun⟩ := step_serial (fun _ => disciplined_of_cashBody) hSound hStep
  have hServe := (Runs.of_single hRun).2
  obtain ⟨key', hKey', _, ⟨found, hFound', hReplay, hSame⟩ | ⟨hFree, _⟩⟩ :=
    serve_execute.mp hServe
  · obtain rfl := Except.ok.inj (hKey.symm.trans hKey')
    obtain rfl := Option.some.inj (hFound.symm.trans hFound')
    obtain ⟨hHash', _, _, hAnswer'⟩ := replay_eq_ok.mp hReplay
    have hEqual : (later.request sha256).requestHash = (first.request sha256).requestHash :=
      hHash'.symm.trans hHash
    exact ⟨hSame, hAnswer'.symm.trans hAnswer, identical_of_hash hEqual⟩
  · obtain rfl := Except.ok.inj (hKey.symm.trans hKey')
    rw [hFound] at hFree
    cases hFree

theorem serve_execute_of_identical {sha256 : String → String} {key : String}
    {first later : CashMessage} {tables : CashTables} {stored : CommandRow}
    {surroundings : Surroundings} (hFound : findCommand tables key = some stored)
    (hHash : stored.requestHash = (first.request sha256).requestHash)
    (hKey : requireIdempotencyKey later.idempotencyKey = .ok key)
    (hIdentical : first.Identical later)
    (hEntitled : Entitled surroundings later stored.response) :
    serve (execute surroundings (later.request sha256)) tables = .ok (tables, stored.response) := by
  obtain ⟨hAbility, hMember, hRecheck⟩ := hEntitled
  have hReplay : replay surroundings (later.request sha256) stored = .ok stored.response :=
    replay_eq_ok.mpr ⟨hHash.trans hIdentical.hash_eq.symm, hMember, hRecheck, rfl⟩
  have hServe : serve (execute surroundings (later.request sha256)) tables =
      (replay surroundings (later.request sha256) stored).map fun response => (tables, response) :=
    serve_execute_of_receipt hKey hAbility hFound
  rw [hServe, hReplay]
  rfl

theorem serve_execute_of_different {sha256 : String → String} {key : String}
    {first later : CashMessage} {tables : CashTables} {stored : CommandRow}
    {surroundings : Surroundings} (hFound : findCommand tables key = some stored)
    (hHash : stored.requestHash = (first.request sha256).requestHash)
    (hKey : requireIdempotencyKey later.idempotencyKey = .ok key)
    (hDifferent : ¬ first.Identical later) (hApart : NoCollision sha256 first later)
    (hAbility : assertAbility later.actor (cashCommandAbility later.command) none = .ok ()) :
    serve (execute surroundings (later.request sha256)) tables = .error idempotencyConflict := by
  have hOther : stored.requestHash ≠ (later.request sha256).requestHash := by
    intro hEqual
    exact hDifferent (identical_of_hash (hEqual.symm.trans hHash) hApart)
  have hReplay : replay surroundings (later.request sha256) stored =
      .error idempotencyConflict := by
    rw [replay, throwIf, if_pos hOther]
    rfl
  have hServe : serve (execute surroundings (later.request sha256)) tables =
      (replay surroundings (later.request sha256) stored).map fun response => (tables, response) :=
    serve_execute_of_receipt hKey hAbility hFound
  rw [hServe, hReplay]
  rfl

theorem leavesNothing (hSound : system.Sound CashBody cashProtection) :
    LeavesNothing system where
  unchanged := by
    intro event after hStep hNot
    obtain ⟨_, hRun⟩ := step_serial (fun _ => disciplined_of_cashBody) hSound hStep
    cases event with
    | commit tid body answer => exact absurd rfl (hNot tid body answer)
    | begin => exact Runs.eq_of_nil hRun
    | statement => exact Runs.eq_of_nil hRun
    | rollback => exact Runs.eq_of_nil hRun
  released := by
    intro tid after hStep
    cases hStep
    exact System.setFlight_self _ _ _
  retried := fun _ _ _ _ hLoads hKey hFree => serve_execute_of_free hLoads hKey hFree

/-- In every interleaving a key has one request that takes effect. Whatever commits under it
later is identical to that one, is answered with its document and changes nothing; another
request is told of the conflict; and a request that fails leaves nothing that blocks it. -/
theorem executesOnce_of_runs (sha256 : String → String) {tables : CashTables}
    {events : List (Event Tid CashLock CashTables DomainError CashDocument)}
    (run : Runs (Step CashBody) (System.idle tables) events system) :
    (∀ surroundings first key answer,
      (execute surroundings (CashMessage.request sha256 first), answer) ∈ commits events →
      requireIdempotencyKey first.idempotencyKey = .ok key →
      AnsweredFor sha256 key first answer system) ∧
    LeavesNothing system := by
  obtain ⟨hSound, hSerial⟩ :=
    serial_of_runs (fun _ => disciplined_of_cashBody) (sound_idle tables) run
  refine ⟨?_, leavesNothing hSound⟩
  intro surroundings first key answer hCommit hKey
  obtain ⟨stored, hFound, hHash, hAnswer⟩ := receipt_of_serial hSerial hCommit hKey
  obtain rfl := hAnswer
  exact {
    once := fun _ _ _ _ _ hLater hStep => once_of_receipt hSound hFound hHash rfl hLater hStep
    replayed := fun _ _ hLater => serve_execute_of_identical hFound hHash hLater
    rejected := fun _ _ hLater => serve_execute_of_different hFound hHash hLater }

end

/-- Ana creates a register, in this order of the keys. -/
def anaMessage (body : Json) (h : Json.Same body (CashCommand.createRegister "Front desk").toJson) :
    CashMessage :=
  ⟨someone "ana", .createRegister "Front desk", body, "key-1", h⟩

def anaFirst : CashMessage := anaMessage _ (.refl _)

/-- The same again, the name before the kind. -/
def anaAgain : CashMessage :=
  anaMessage (.object [("name", .string "Front desk"), ("kind", .string "CREATE_REGISTER")])
    (.reorder (List.Perm.swap _ _ _))

/-- A hash without collisions. -/
def plainHash (text : String) : String := text

theorem serve_anaFirst : (serve (execute (moment 1 "front") (anaFirst.request plainHash))
    .empty).toOption.isSome = true := by
  decide +kernel

theorem runs_of_anaFirst : ∃ events system answer,
    Runs (Step CashBody) (System.idle CashTables.empty :
      System Unit CashLock CashTables DomainError CashDocument) events system ∧
    (execute (moment 1 "front") (anaFirst.request plainHash), answer) ∈ commits events := by
  have hSome := serve_anaFirst
  cases hServe : serve (execute (moment 1 "front") (anaFirst.request plainHash)) .empty with
  | error error =>
      rw [hServe] at hSome
      cases hSome
  | ok out =>
      have hServes : Runs (Serves CashBody) CashTables.empty
          [(execute (moment 1 "front") (anaFirst.request plainHash), out.2)] out.1 :=
        Runs.single ⟨.request _ (moment_loads 1 "front") _, hServe⟩
      obtain ⟨events, run, hCommits⟩ := runs_of_serial () hServes
      exact ⟨events, _, out.2, run, hCommits ▸ List.mem_singleton.mpr rfl⟩

theorem executesOnce_of_anaAgain : ∃ events system answer,
    Runs (Step CashBody) (System.idle CashTables.empty :
      System Unit CashLock CashTables DomainError CashDocument) events system ∧
    (execute (moment 1 "front") (anaFirst.request plainHash), answer) ∈ commits events ∧
    LeavesNothing system ∧
    serve (execute (moment 2 "again") (anaAgain.request plainHash)) system.tables =
      .ok (system.tables, answer) := by
  obtain ⟨events, system, answer, run, hCommit⟩ := runs_of_anaFirst
  obtain ⟨hAnswered, hNothing⟩ := executesOnce_of_runs plainHash run
  have hKey : requireIdempotencyKey "key-1" = .ok "key-1" := by decide +kernel
  exact ⟨events, system, answer, run, hCommit, hNothing,
    (hAnswered _ anaFirst "key-1" answer hCommit hKey).replayed _ anaAgain hKey
      ⟨rfl, anaAgain.carries⟩ ⟨rfl, rfl, rfl⟩⟩

/-- Ana is no longer an active user. -/
def anaRevoked : Surroundings := { moment 2 "again" with standing := fun _ => .inactive }

/-- The stored document of an identical request is kept from an actor who was revoked. -/
theorem replay_refused_of_revoked : ∃ events system answer,
    Runs (Step CashBody) (System.idle CashTables.empty :
      System Unit CashLock CashTables DomainError CashDocument) events system ∧
    (execute (moment 1 "front") (anaFirst.request plainHash), answer) ∈ commits events ∧
    anaRevoked.Loads ∧ anaFirst.Identical anaAgain ∧
    ∀ out, serve (execute anaRevoked (anaAgain.request plainHash)) system.tables ≠ .ok out := by
  obtain ⟨events, system, answer, run, hCommit⟩ := runs_of_anaFirst
  refine ⟨events, system, answer, run, hCommit, moment_loads 2 "again",
    ⟨rfl, anaAgain.carries⟩, fun out hServe => ?_⟩
  obtain ⟨_, _, _, ⟨_, _, hReplay, _⟩ | ⟨_, _, hRun, _⟩⟩ := serve_execute.mp hServe
  · obtain ⟨_, hMember, _⟩ := replay_eq_ok.mp hReplay
    cases hMember
  · rw [runCommand, serve_check, bind_eq_ok] at hRun
    obtain ⟨_, hMember, _⟩ := hRun
    cases hMember

end Houndfe.Cash
