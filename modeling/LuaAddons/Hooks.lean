import LuaAddons.Plugin

/-!
# The hooks of the server

`Addons.Initialize` registers one callback for each hook. Seven of them only invoke the event
of their name, twenty-eight also propagate `Handled`, and `onGamePostUpdate` (in
`LuaAddons.Plugin`) reloads failed addons. All but three of the second kind pass the event
arguments on unchanged; the hooks about packets take them apart.
-/

namespace LuaAddons

variable {H : Type} (P : Platform) (env : Env H) (nested : Nested H) (stack : CallStack)

/-! ## Hooks without a result -/

def onGameInitialize (args : NetObject) : Method H Unit :=
  forEachInvoke P env nested stack "GameInitialize" [args]

def onGamePostInitialize (args : NetObject) : Method H Unit :=
  forEachInvoke P env nested stack "GamePostInitialize" [args]

def onGameUpdate (args : NetObject) : Method H Unit :=
  forEachInvoke P env nested stack "GameUpdate" [args]

def onGameWorldConnect (args : NetObject) : Method H Unit :=
  forEachInvoke P env nested stack "GameWorldConnect" [args]

def onGameWorldDisconnect (args : NetObject) : Method H Unit :=
  forEachInvoke P env nested stack "GameWorldDisconnect" [args]

def onServerLeave (args : NetObject) : Method H Unit :=
  forEachInvoke P env nested stack "ServerLeave" [args]

def onServerSocketReset (args : NetObject) : Method H Unit :=
  forEachInvoke P env nested stack "ServerSocketReset" [args]

/-! ## Hooks that propagate Handled -/

def onGameHardmodeTileUpdate (args : NetObject) : Method H Unit :=
  onHandled P env nested stack "GameHardmodeTileUpdate" (.ok [args])

def onGameStatueSpawn (args : NetObject) : Method H Unit :=
  onHandled P env nested stack "GameStatueSpawn" (.ok [args])

def onItemNetDefaults (args : NetObject) : Method H Unit :=
  onHandled P env nested stack "ItemNetDefaults" (.ok [args])

def onItemSetDefaultsInt (args : NetObject) : Method H Unit :=
  onHandled P env nested stack "ItemSetDefaultsInt" (.ok [args])

def onItemSetDefaultsString (args : NetObject) : Method H Unit :=
  onHandled P env nested stack "ItemSetDefaultsString" (.ok [args])

def onNetGreetPlayer (args : NetObject) : Method H Unit :=
  onHandled P env nested stack "NetGreetPlayer" (.ok [args])

def onNetNameCollision (args : NetObject) : Method H Unit :=
  onHandled P env nested stack "NetNameCollision" (.ok [args])

def onNpcLootDrop (args : NetObject) : Method H Unit :=
  onHandled P env nested stack "NpcLootDrop" (.ok [args])

def onNpcNetDefaults (args : NetObject) : Method H Unit :=
  onHandled P env nested stack "NpcNetDefaults" (.ok [args])

def onNpcSetDefaultsInt (args : NetObject) : Method H Unit :=
  onHandled P env nested stack "NpcSetDefaultsInt" (.ok [args])

def onNpcSetDefaultsString (args : NetObject) : Method H Unit :=
  onHandled P env nested stack "NpcSetDefaultsString" (.ok [args])

def onNpcSpawn (args : NetObject) : Method H Unit :=
  onHandled P env nested stack "NpcSpawn" (.ok [args])

def onNpcStrike (args : NetObject) : Method H Unit :=
  onHandled P env nested stack "NpcStrike" (.ok [args])

def onNpcTriggerPressurePlate (args : NetObject) : Method H Unit :=
  onHandled P env nested stack "NpcTriggerPressurePlate" (.ok [args])

def onProjectileSetDefaults (args : NetObject) : Method H Unit :=
  onHandled P env nested stack "ProjectileSetDefaults" (.ok [args])

def onProjectileTriggerPressurePlate (args : NetObject) : Method H Unit :=
  onHandled P env nested stack "ProjectileTriggerPressurePlate" (.ok [args])

def onServerChat (args : NetObject) : Method H Unit :=
  onHandled P env nested stack "ServerChat" (.ok [args])

def onServerCommand (args : NetObject) : Method H Unit :=
  onHandled P env nested stack "ServerCommand" (.ok [args])

def onServerConnect (args : NetObject) : Method H Unit :=
  onHandled P env nested stack "ServerConnect" (.ok [args])

def onServerJoin (args : NetObject) : Method H Unit :=
  onHandled P env nested stack "ServerJoin" (.ok [args])

def onWorldChristmasCheck (args : NetObject) : Method H Unit :=
  onHandled P env nested stack "WorldChristmasCheck" (.ok [args])

def onWorldHalloweenCheck (args : NetObject) : Method H Unit :=
  onHandled P env nested stack "WorldHalloweenCheck" (.ok [args])

def onWorldMeteorDrop (args : NetObject) : Method H Unit :=
  onHandled P env nested stack "WorldMeteorDrop" (.ok [args])

def onWorldSave (args : NetObject) : Method H Unit :=
  onHandled P env nested stack "WorldSave" (.ok [args])

def onWorldStartHardMode (args : NetObject) : Method H Unit :=
  onHandled P env nested stack "WorldStartHardMode" (.ok [args])

/-! ## Packets -/

/-- The bytes of a packet and the text `GetRawString` makes of them. -/
def packetArgs (whoAmI : Int) (msgId length : Nat) (data : List UInt8) : List NetObject :=
  [.int whoAmI, .int msgId, .int length, .string (P.decode data)]

def getDataArgs (whoAmI : Int) (msgId : UInt8) (readBuffer : List UInt8) (length : Int) :
    List NetObject :=
  let data := readBuffer.take (length + 2).toNat
  packetArgs P whoAmI msgId.toNat data.length data

def onNetGetData (whoAmI : Int) (msgId : UInt8) (readBuffer : List UInt8) (length : Int) :
    Method H Unit :=
  onHandled P env nested stack "NetGetData" (.ok (getDataArgs P whoAmI msgId readBuffer length))

/-- The message id is the third byte, read without a check of the length. -/
def sendBytesArgs (whoAmI : Int) (buffer : List UInt8) (offset count : Nat) :
    Except NetException (List NetObject) :=
  let data := (buffer.drop offset).take count
  match data[2]? with
  | none => .error .indexOutOfRange
  | some msgId => .ok (packetArgs P whoAmI msgId.toNat count data)

def onNetSendBytes (whoAmI : Int) (buffer : List UInt8) (offset count : Nat) : Method H Unit :=
  onHandled P env nested stack "NetSendBytes" (sendBytesArgs P whoAmI buffer offset count)

/-- The arguments of `NetMessage.SendData`; the floats by the bits of their double. -/
structure SendDataEventArgs where
  ignoreClient : Int
  remoteClient : Int
  msgId : UInt8
  number : Int
  number2 : UInt64
  number3 : UInt64
  number4 : UInt64
  number5 : Int
  text : Option String

def SendDataEventArgs.toList (args : SendDataEventArgs) : List NetObject :=
  [.int args.ignoreClient, .int args.remoteClient, .int args.msgId.toNat, .int args.number,
    .number args.number2, .number args.number3, .number args.number4, .int args.number5,
    (match args.text with
      | none => .null
      | some text => .string text)]

def onNetSendData (args : SendDataEventArgs) : Method H Unit :=
  onHandled P env nested stack "NetSendData" (.ok args.toList)

/-! ## All hooks that propagate Handled -/

/-- A hook that propagates `Handled`, with the arguments the server passes. -/
inductive HandledHook where
  | gameHardmodeTileUpdate (args : NetObject)
  | gameStatueSpawn (args : NetObject)
  | itemNetDefaults (args : NetObject)
  | itemSetDefaultsInt (args : NetObject)
  | itemSetDefaultsString (args : NetObject)
  | netGreetPlayer (args : NetObject)
  | netNameCollision (args : NetObject)
  | npcLootDrop (args : NetObject)
  | npcNetDefaults (args : NetObject)
  | npcSetDefaultsInt (args : NetObject)
  | npcSetDefaultsString (args : NetObject)
  | npcSpawn (args : NetObject)
  | npcStrike (args : NetObject)
  | npcTriggerPressurePlate (args : NetObject)
  | projectileSetDefaults (args : NetObject)
  | projectileTriggerPressurePlate (args : NetObject)
  | serverChat (args : NetObject)
  | serverCommand (args : NetObject)
  | serverConnect (args : NetObject)
  | serverJoin (args : NetObject)
  | worldChristmasCheck (args : NetObject)
  | worldHalloweenCheck (args : NetObject)
  | worldMeteorDrop (args : NetObject)
  | worldSave (args : NetObject)
  | worldStartHardMode (args : NetObject)
  | netGetData (whoAmI : Int) (msgId : UInt8) (readBuffer : List UInt8) (length : Int)
  | netSendBytes (whoAmI : Int) (buffer : List UInt8) (offset count : Nat)
  | netSendData (args : SendDataEventArgs)

/-- The callback of the hook. -/
def HandledHook.run : HandledHook → Method H Unit
  | .gameHardmodeTileUpdate args => onGameHardmodeTileUpdate P env nested stack args
  | .gameStatueSpawn args => onGameStatueSpawn P env nested stack args
  | .itemNetDefaults args => onItemNetDefaults P env nested stack args
  | .itemSetDefaultsInt args => onItemSetDefaultsInt P env nested stack args
  | .itemSetDefaultsString args => onItemSetDefaultsString P env nested stack args
  | .netGreetPlayer args => onNetGreetPlayer P env nested stack args
  | .netNameCollision args => onNetNameCollision P env nested stack args
  | .npcLootDrop args => onNpcLootDrop P env nested stack args
  | .npcNetDefaults args => onNpcNetDefaults P env nested stack args
  | .npcSetDefaultsInt args => onNpcSetDefaultsInt P env nested stack args
  | .npcSetDefaultsString args => onNpcSetDefaultsString P env nested stack args
  | .npcSpawn args => onNpcSpawn P env nested stack args
  | .npcStrike args => onNpcStrike P env nested stack args
  | .npcTriggerPressurePlate args => onNpcTriggerPressurePlate P env nested stack args
  | .projectileSetDefaults args => onProjectileSetDefaults P env nested stack args
  | .projectileTriggerPressurePlate args => onProjectileTriggerPressurePlate P env nested stack args
  | .serverChat args => onServerChat P env nested stack args
  | .serverCommand args => onServerCommand P env nested stack args
  | .serverConnect args => onServerConnect P env nested stack args
  | .serverJoin args => onServerJoin P env nested stack args
  | .worldChristmasCheck args => onWorldChristmasCheck P env nested stack args
  | .worldHalloweenCheck args => onWorldHalloweenCheck P env nested stack args
  | .worldMeteorDrop args => onWorldMeteorDrop P env nested stack args
  | .worldSave args => onWorldSave P env nested stack args
  | .worldStartHardMode args => onWorldStartHardMode P env nested stack args
  | .netGetData whoAmI msgId readBuffer length =>
    onNetGetData P env nested stack whoAmI msgId readBuffer length
  | .netSendBytes whoAmI buffer offset count =>
    onNetSendBytes P env nested stack whoAmI buffer offset count
  | .netSendData args => onNetSendData P env nested stack args

/-- The event a hook invokes, and the arguments it builds for each addon. -/
def HandledHook.call : HandledHook → String × Except NetException (List NetObject)
  | .gameHardmodeTileUpdate args => ("GameHardmodeTileUpdate", .ok [args])
  | .gameStatueSpawn args => ("GameStatueSpawn", .ok [args])
  | .itemNetDefaults args => ("ItemNetDefaults", .ok [args])
  | .itemSetDefaultsInt args => ("ItemSetDefaultsInt", .ok [args])
  | .itemSetDefaultsString args => ("ItemSetDefaultsString", .ok [args])
  | .netGreetPlayer args => ("NetGreetPlayer", .ok [args])
  | .netNameCollision args => ("NetNameCollision", .ok [args])
  | .npcLootDrop args => ("NpcLootDrop", .ok [args])
  | .npcNetDefaults args => ("NpcNetDefaults", .ok [args])
  | .npcSetDefaultsInt args => ("NpcSetDefaultsInt", .ok [args])
  | .npcSetDefaultsString args => ("NpcSetDefaultsString", .ok [args])
  | .npcSpawn args => ("NpcSpawn", .ok [args])
  | .npcStrike args => ("NpcStrike", .ok [args])
  | .npcTriggerPressurePlate args => ("NpcTriggerPressurePlate", .ok [args])
  | .projectileSetDefaults args => ("ProjectileSetDefaults", .ok [args])
  | .projectileTriggerPressurePlate args => ("ProjectileTriggerPressurePlate", .ok [args])
  | .serverChat args => ("ServerChat", .ok [args])
  | .serverCommand args => ("ServerCommand", .ok [args])
  | .serverConnect args => ("ServerConnect", .ok [args])
  | .serverJoin args => ("ServerJoin", .ok [args])
  | .worldChristmasCheck args => ("WorldChristmasCheck", .ok [args])
  | .worldHalloweenCheck args => ("WorldHalloweenCheck", .ok [args])
  | .worldMeteorDrop args => ("WorldMeteorDrop", .ok [args])
  | .worldSave args => ("WorldSave", .ok [args])
  | .worldStartHardMode args => ("WorldStartHardMode", .ok [args])
  | .netGetData whoAmI msgId readBuffer length =>
    ("NetGetData", .ok (getDataArgs P whoAmI msgId readBuffer length))
  | .netSendBytes whoAmI buffer offset count =>
    ("NetSendBytes", sendBytesArgs P whoAmI buffer offset count)
  | .netSendData args => ("NetSendData", .ok args.toList)

/-- The arguments can be built: a packet without a message id throws. -/
def HandledHook.Builds (hook : HandledHook) : Prop := ∃ args, (hook.call P).2 = .ok args

/-- The arguments, when they can be built. -/
def HandledHook.args (hook : HandledHook) : List NetObject :=
  match (hook.call P).2 with
  | .ok args => args
  | .error _ => []

theorem HandledHook.run_eq_onHandled (hook : HandledHook) :
    hook.run P env nested stack =
      onHandled P env nested stack (hook.call P).1 (hook.call P).2 := by
  cases hook <;> rfl

theorem HandledHook.event_dotless (hook : HandledHook) : '.' ∉ (hook.call P).1.toList := by
  cases hook <;> simp only [HandledHook.call] <;> decide

end LuaAddons
