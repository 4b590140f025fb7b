import GamePath.Electron.VpnState

/-!
# The VPN section of the main process (`vpn-ipc.cjs`, `vpn-direct-ipc.cjs`)

Targets, nodes and the direct list are edited on a queue each, beside the queue of the session's
controller. A step of the model is what runs without waiting, as in the controller's model; a wait
for a work of the controller goes on before the next work begins.

`uuids` is history: every id that was made so far. `accepted` is history too: what the service runs
the session with, as of its last answer. `disk` is what was saved last. Saving succeeds.
-/

namespace GamePath.Electron.Vpn

open Engine.Direct (Text)

/-- What a start request is made of besides its nodes. -/
structure Payload where
  rules : List RuleSpec
  direct : Option DirectSpec
  deriving DecidableEq

/-- A change `commitRuleChange` is called with. -/
inductive RuleEdit where
  | add (rule : Rule)
  | setNode (id : Text) (nodeId : Option Text)
  | setEnabled (id : Text) (enabled : Bool)
  | remove (id : Text)

/-- How far an edit of the targets is, with the rules it has sent. -/
inductive RuleEditing where
  | updating (previous : List Rule) (sent : Option (List RuleSpec))
  | restoring (sent : Option (List RuleSpec))
  /-- It waits for the works of the controller up to a number. -/
  | restarting (bound : Nat)

/-- What `changeNodes` is called with. -/
inductive NodeEdit where
  | add (node : Node)
  | select (id : Text)
  | remove (id : Option Text)

/-- What an edit of the nodes waits for. -/
inductive NodeEditing where
  | selecting (bound : Nat)
  | disconnecting (id : Text) (bound : Nat)
  | removing (bound : Nat)

/-- A change `commit` of the direct list is called with. -/
inductive DirectEdit where
  | enable (lists : List Text)
  | disable
  | setList (id : Text) (on : Bool)
  | addEntry (entry : DirectEntry)
  | setEntryEnabled (id : Text) (enabled : Bool)
  | removeEntry (id : Text)
  | keep
  deriving DecidableEq

/-- How far an edit of the direct list is, with the list it has sent. -/
inductive DirectEditing where
  | updating (previous : Direct) (sent : Option (Option DirectSpec))
  | restoring (sent : Option (Option DirectSpec))

/-- Downloads an edit of the direct list waits for. If `strict` a list that is there is not
downloaded again, and a failed download rejects the edit. -/
structure Downloads where
  todo : List Text
  strict : Bool
  edit : DirectEdit

/-- What is saved. -/
structure Saved where
  settings : Settings
  secrets : List Text

/-- What a step asks its surroundings: `pauseReason`, `service.ready`, and whether the secrets can
be decrypted and `nodeSpec` is content with them. -/
structure Env where
  now : Nat
  pause : Option PauseReason
  ready : Bool
  decrypts : Bool
  specs : Bool

/-- A request a step sends. -/
inductive Request where
  | session (sent : Sent Payload)
  | updateSessionRules (rules : List RuleSpec)
  | updateSessionDirect (direct : Option DirectSpec)

/-- The VPN section. -/
structure Feature where
  settings : Settings
  secrets : List Text
  disk : Saved
  controller : Controller Payload
  ruleEdits : List RuleEdit
  ruleEditing : Option RuleEditing
  nodeEdits : List NodeEdit
  nodeEditing : Option NodeEditing
  directEdits : List DirectEdit
  directEditing : Option DirectEditing
  downloads : List Downloads
  /-- The downloaded lists. -/
  store : List (Text × List Text)
  /-- The waits of `setWanted`. -/
  wanting : List Nat
  uuids : List Text
  accepted : Option (Built Payload)

/-- A call, or something that comes in. -/
inductive FeatureEvent where
  | launch (now : Nat) (direct : Direct)
  | setWanted (on : Bool)
  | wantedResumed (index : Nat)
  | reconsider
  | onResume
  | resume
  | shutdown
  | turn (env : Env)
  | answered (env : Env) (result : Except ServiceError Started)
  | pollTimer
  | pollAnswered (now : Nat) (result : Except ServiceError Runtime)
  | reconnectTimer
  | setTrafficMode (mode : TrafficMode)
  | setRemoteDns (enabled : Bool)
  | setKillSwitch (enabled : Bool)
  | addNode (node : Node)
  | selectNode (id : Text)
  | removeNode (id : Option Text)
  | nodeTurn
  | nodeResumed
  | addRule (input : RuleInput) (id : Text)
  | setRuleNode (id : Text) (nodeId : Option Text)
  | setRuleEnabled (id : Text) (enabled : Bool)
  | removeRule (id : Text)
  | ruleTurn
  | ruleAnswered (ok : Bool)
  | ruleResumed
  | setDirectEnabled (enabled : Bool)
  | setDirectList (id : Text) (on : Bool)
  | updateDirectLists (ids : List Text)
  | addDirectEntry (entry : DirectEntry)
  | setDirectEntryEnabled (id : Text) (enabled : Bool)
  | removeDirectEntry (id : Text)
  | downloaded (index : Nat) (entries : Option (List Text))
  | directTurn
  | directAnswered (ok : Bool)

variable (vpn : Settings)

/-- The target changes in the first of its id. -/
def Settings.modifyRule (id : Text) (f : Rule → Rule) : Settings :=
  { vpn with rules := vpn.rules.modify (vpn.rules.findIdx fun rule => rule.id = id) f }

/-- A change of the targets. -/
def Settings.changeRules : RuleEdit → Settings
  | .add rule => { vpn with rules := vpn.rules ++ [rule] }
  | .setNode id nodeId => vpn.modifyRule id fun rule => { rule with nodeId := nodeId }
  | .setEnabled id enabled => vpn.modifyRule id fun rule => { rule with enabled := enabled }
  | .remove id => { vpn with rules := vpn.rules.filter fun rule => rule.id ≠ id }

/-- The nodes with only the selected one enabled. -/
def Settings.enableSelected : Settings :=
  { vpn with nodes := vpn.nodes.map fun node =>
      { node with enabled := some node.id = vpn.selectedNodeId } }

/-- The default node is chosen. -/
def Settings.select (id : Text) : Settings :=
  Settings.enableSelected { vpn with selectedNodeId := some id }

/-- The node is taken out, and its targets stay, on the default node. -/
def Settings.removeNode (id : Text) : Settings :=
  let nodes := vpn.nodes.filter fun node => node.id ≠ id
  let removed : Settings :=
    if vpn.selectedNodeId = some id then
      Settings.enableSelected { vpn with
        nodes := nodes, selectedNodeId := nodes.head?.map Node.id }
    else { vpn with nodes := nodes }
  { removed with rules := vpn.rules.map fun rule =>
      if rule.nodeId = some id then { rule with nodeId := none } else rule }

/-- The entry changes in the first of its id. -/
def Direct.modifyEntry (direct : Direct) (id : Text) (f : DirectEntry → DirectEntry) : Direct :=
  { direct with entries := direct.entries.modify (direct.entries.findIdx fun entry =>
    entry.id = id) f }

/-- A change of the direct list. -/
def Direct.change (direct : Direct) : DirectEdit → Direct
  | .enable lists => { direct with enabled := true, lists := lists }
  | .disable => { direct with enabled := false }
  | .setList id on =>
    { direct with lists := if on then (direct.lists ++ [id]).eraseDups
        else direct.lists.filter fun item => item ≠ id }
  | .addEntry entry => { direct with entries := direct.entries ++ [entry] }
  | .setEntryEnabled id enabled =>
    direct.modifyEntry id fun entry => { entry with enabled := enabled }
  | .removeEntry id => { direct with entries := direct.entries.filter fun entry => entry.id ≠ id }
  | .keep => direct

/-- A call of the direct list, or a download that is over. -/
def FeatureEvent.commits : FeatureEvent → Bool
  | .setDirectEnabled _ | .setDirectList _ _ | .updateDirectLists _ | .addDirectEntry
      _ | .setDirectEntryEnabled _ _
  | .removeDirectEntry _ | .downloaded _ _ => true
  | _ => false

namespace Feature

/-- The first launch. -/
def new (now : Nat) : Feature where
  settings := defaultVpn
  secrets := []
  disk := ⟨defaultVpn, []⟩
  controller := .new Payload now
  ruleEdits := []
  ruleEditing := none
  nodeEdits := []
  nodeEditing := none
  directEdits := []
  directEditing := none
  downloads := []
  store := []
  wanting := []
  uuids := []
  accepted := none

variable (s : Feature)

/-- `saveState`. -/
def save : Feature := { s with disk := ⟨s.settings, s.secrets⟩ }

/-! ## What a session is told -/

def has (id : Text) : Bool := (s.store.lookup id).isSome

/-- `store.entries`. -/
def entriesOf (id : Text) : List Text := (s.store.lookup id).getD []

def spec : Option DirectSpec :=
  if directLimited s.settings.selectedVpnNode then none
  else directSpec s.settings.direct s.entriesOf

/-- What a session keeps of a node. -/
def sessionNode (node : Node) : SessionNode := ⟨node.id, node.name, node.kind⟩

def buildRequest (env : Env) : Except Bool (Built Payload) :=
  let settings := s.settings
  match settings.selectedVpnNode with
  | none => .error true
  | some node =>
    let nodes := settings.sessionNodes
    let rules := settings.vpnRuleSpecs (nodes.map Node.id)
    if !settings.unroutableRules.isEmpty || nodeSetLimited nodes ||
        (decide (settings.trafficMode = .split) && rules.isEmpty) ||
        !env.decrypts || !nodes.all fun node => s.secrets.contains node.id then .error true
    else if !env.specs then .error false
    else
      .ok ⟨sessionNode node, nodes.map sessionNode, settings.trafficMode, settings.remoteDns,
        ⟨rules, s.spec⟩⟩

/-- What the controller asks its surroundings. -/
def surroundings (env : Env) : Surroundings Payload :=
  ⟨env.now, env.pause, env.ready, s.buildRequest env⟩

/-! ## The controller -/

/-- The controller takes a step. -/
def drive (e : VpnEvent Payload) : Feature × List Request :=
  let r := s.controller.step e
  ({ s with controller := r.1 }, r.2.map .session)

def restart : Feature := (s.drive .restart).1

def saveAndReconnect : Feature := s.save.restart

/-- The works of the controller up to a number are through. -/
def ready (bound : Nat) : Bool :=
  (s.controller.queue.all fun work => decide (bound ≤ work.number)) &&
    s.controller.running.all fun running => decide (bound ≤ running.1)

/-- A removal that waits for its disconnect goes on before the next work begins. -/
def resumes : Bool :=
  match s.nodeEditing with
  | some (.disconnecting _ bound) => s.ready bound
  | _ => false

def carriesNodes (nodes : List Node) : Bool :=
  !s.controller.session.status.active ||
    decide (s.controller.session.nodes.map SessionNode.id = nodes.map Node.id)

/-- The service accepts an answered start. -/
def acceptStart (result : Except ServiceError Started) : Feature :=
  match s.controller.running, result with
  | some (_, .starting _ built), .ok _ => { s with accepted := some built }
  | _, _ => s

def setWanted (on : Bool) : Feature × List Request :=
  if on && s.settings.selectedVpnNode.isNone then (s, [])
  else
    let s := { s with settings := { s.settings with wantConnected := on } }.save
    let r := s.drive (if on then .connect else .disconnect)
    ({ r.1 with wanting := r.1.wanting ++ [r.1.controller.issued] }, r.2)

/-- What follows the wait of `setWanted`. -/
def wantedResumed (index : Nat) : Feature :=
  match s.wanting[index]? with
  | none => s
  | some bound =>
    if s.ready bound then
      let s := { s with wanting := s.wanting.eraseIdx index }
      if s.settings.wantConnected ≠ s.controller.wanted then
        { s with settings := { s.settings with wantConnected := s.controller.wanted } }.save
      else s
    else s

/-! ## Nodes -/

/-- An id that was never made before. -/
def fresh (id : Text) : Bool := !id.isEmpty && !s.uuids.contains id

/-- What a call of `setNode` does once it has its turn. -/
def setNode (node : Node) : Feature :=
  let selected := s.settings.selectedVpnNode.isNone
  let settings := { s.settings with
    nodes := s.settings.nodes ++ [{ node with enabled := selected }]
    selectedNodeId := if selected then some node.id else s.settings.selectedNodeId }
  { s with settings := settings, secrets := s.secrets ++ [node.id] }.save

/-- What keeps a node from being selected. -/
def selectBlocked (node : Node) : Bool :=
  let proposed := { s.settings with selectedNodeId := some node.id }
  !proposed.unroutableRules.isEmpty || nodeSetLimited proposed.sessionNodes ||
    trafficModeLimited (some node) proposed.trafficMode || !s.secrets.contains node.id

/-- What a call of `selectNode` does once it has its turn. -/
def selectNode (id : Text) : Feature :=
  match s.settings.nodes.find? fun node => node.id = id with
  | none => s
  | some node =>
    if some id = s.settings.selectedNodeId || s.selectBlocked node then s
    else
      let s := { s with settings := s.settings.select id }.save.restart
      { s with nodeEditing := some (.selecting s.controller.issued) }

/-- The node is taken out of the settings, with its secret. -/
def takeOut (id : Text) : Feature :=
  { s with settings := s.settings.removeNode id
           secrets := s.secrets.filter fun secret => secret ≠ id }.save

/-- What a call of `vpn:remove-node` does once it has its turn. -/
def removeNode (id : Text) : Feature :=
  if !s.settings.hasNode id then s
  else if s.settings.selectedNodeId = some id then
    let s := { s with settings := { s.settings with wantConnected := false } }
    let s := (s.drive .disconnect).1
    { s with nodeEditing := some (.disconnecting id s.controller.issued) }
  else
    let inUse := s.settings.sessionNodes.any fun node => node.id = id
    let s := s.takeOut id
    if inUse then
      let s := s.restart
      { s with nodeEditing := some (.removing s.controller.issued) }
    else s

/-- An edit of the nodes has its turn. -/
def nodeTurn : Feature :=
  match s.nodeEditing, s.nodeEdits with
  | none, edit :: edits =>
    let s := { s with nodeEdits := edits }
    match edit with
    | .add node => s.setNode node
    | .select id => s.selectNode id
    | .remove id =>
      match id.or s.settings.selectedNodeId with
      | none => s
      | some id => s.removeNode id
  | _, _ => s

/-- What follows the wait of an edit of the nodes. -/
def nodeResumed : Feature :=
  match s.nodeEditing with
  | some (.selecting bound) =>
    if s.ready bound then
      { s with
        nodeEditing := none
        settings := { s.settings with wantConnected := s.controller.wanted } }.save
    else s
  | some (.disconnecting id bound) =>
    if s.ready bound then { s with nodeEditing := none }.takeOut id else s
  | some (.removing bound) => if s.ready bound then { s with nodeEditing := none } else s
  | none => s

/-! ## Targets -/

/-- `vpn:add-rule`, up to its turn. -/
def addRule (lower : Text → Text) (s : Feature) (input : RuleInput) (id : Text) : Feature :=
  match createRule input id with
  | none => s
  | some rule =>
    if (rule.nodeId.any fun id => !s.settings.hasNode id) ||
        (s.settings.rules.any fun existing => sameTarget lower existing rule) ||
        s.settings.assignedLimited rule then s
    else { s with ruleEdits := s.ruleEdits ++ [.add rule] }

/-- `vpn:set-rule-node`, up to its turn. An empty id is none. -/
def setRuleNode (id : Text) (nodeId : Option Text) : Feature :=
  let nodeId := nodeId.filter fun id => !id.isEmpty
  match s.settings.rules.find? fun rule => rule.id = id with
  | none => s
  | some rule =>
    if (nodeId.any fun id => !s.settings.hasNode id) ||
        s.settings.assignedLimited { rule with nodeId := nodeId } then s
    else { s with ruleEdits := s.ruleEdits ++ [.setNode id nodeId] }

/-- `applyRules`: the rules it sends, if any. -/
def applyRules (nodes : List Node) : Option (List RuleSpec) :=
  if s.controller.session.status.live = true ∧ s.settings.trafficMode = .split then
    some (s.settings.vpnRuleSpecs (nodes.map Node.id))
  else none

/-- An edit of the targets has its turn. -/
def ruleTurn : Feature × List Request :=
  match s.ruleEditing, s.ruleEdits with
  | none, edit :: edits =>
    let s := { s with ruleEdits := edits }
    let previous := s.settings.rules
    let changed := { s with settings := s.settings.changeRules edit }
    let nodes := changed.settings.sessionNodes
    if nodeSetLimited nodes then (s, [])
    else if !changed.carriesNodes nodes then
      let restarted := changed.save.restart
      ({ restarted with ruleEditing := some (.restarting restarted.controller.issued) }, [])
    else
      let sent := changed.applyRules nodes
      ({ changed with ruleEditing := some (.updating previous sent) },
        sent.toList.map .updateSessionRules)
  | _, _ => (s, [])

/-- The service accepts the rules it was sent. -/
def acceptRules (sent : Option (List RuleSpec)) : Feature :=
  match sent with
  | none => s
  | some rules =>
    { s with accepted := s.accepted.map fun built =>
        { built with payload := { built.payload with rules := rules } } }

/-- The targets as they were are restored. -/
def restoreRules (previous : List Rule) : Feature × List Request :=
  let s := { s with settings := { s.settings with rules := previous } }
  let sent := s.applyRules s.settings.sessionNodes
  ({ s with ruleEditing := some (.restoring sent) }, sent.toList.map .updateSessionRules)

/-- What follows the answer an edit of the targets has waited for. -/
def ruleAnswered (ok : Bool) : Feature × List Request :=
  match s.ruleEditing with
  | some (.updating previous sent) =>
    if ok || sent.isNone then ({ s.acceptRules sent with ruleEditing := none }.save, [])
    else s.restoreRules previous
  | some (.restoring sent) =>
    ({ (if ok then s.acceptRules sent else s) with ruleEditing := none }, [])
  | _ => (s, [])

/-- What follows the wait of an edit of the targets. -/
def ruleResumed : Feature :=
  match s.ruleEditing with
  | some (.restarting bound) => if s.ready bound then { s with ruleEditing := none } else s
  | _ => s

/-! ## The direct list -/

/-- `commit`, up to its turn. -/
def commit (edit : DirectEdit) : Feature :=
  { s with directEdits := s.directEdits ++ [edit] }

/-- An edit waits for its downloads; one without any is committed. -/
def download (d : Downloads) : Feature :=
  let todo := if d.strict then d.todo.dropWhile s.has else d.todo
  if todo.isEmpty then s.commit d.edit
  else { s with downloads := s.downloads ++ [{ d with todo := todo }] }

/-- `setEnabled`. The first time on, all lists of the catalog are taken. -/
def setDirectEnabled (enabled : Bool) : Feature :=
  if !enabled then s.commit .disable
  else
    let direct := s.settings.direct
    let lists := if !direct.lists.isEmpty || !direct.entries.isEmpty then direct.lists
      else catalog.map Prod.fst
    s.download ⟨lists, true, .enable lists⟩

/-- `setList`. -/
def setDirectList (id : Text) (on : Bool) : Feature :=
  if (catalog.lookup id).isNone then s
  else if on then s.download ⟨[id], true, .setList id true⟩
  else s.commit (.setList id false)

/-- A download is over: the next one begins, or the edit is committed. -/
def downloaded (index : Nat) (entries : Option (List Text)) : Feature :=
  match s.downloads[index]? with
  | none => s
  | some d =>
    match d.todo with
    | [] => s
    | id :: todo =>
      let rest := { s with downloads := s.downloads.eraseIdx index }
      match entries with
      | some entries =>
        { rest with store := (id, entries) :: s.store }.download { d with todo := todo }
      | none => if d.strict then rest else rest.download { d with todo := todo }

/-- `applyDirect`: the direct list it sends, if any. -/
def applyDirect : Option (Option DirectSpec) :=
  if s.controller.session.status.live then some s.spec else none

/-- An edit of the direct list has its turn. -/
def directTurn : Feature × List Request :=
  match s.directEditing, s.directEdits with
  | none, edit :: edits =>
    let previous := s.settings.direct
    let s := { s with
      directEdits := edits, settings := { s.settings with direct := previous.change edit } }
    ({ s with directEditing := some (.updating previous s.applyDirect) },
      s.applyDirect.toList.map .updateSessionDirect)
  | _, _ => (s, [])

/-- The service accepts the direct list it was sent. -/
def acceptDirect (sent : Option (Option DirectSpec)) : Feature :=
  match sent with
  | none => s
  | some direct =>
    { s with accepted := s.accepted.map fun built =>
        { built with payload := { built.payload with direct := direct } } }

/-- What follows the answer an edit of the direct list has waited for. -/
def directAnswered (ok : Bool) : Feature × List Request :=
  match s.directEditing with
  | some (.updating previous sent) =>
    if ok || sent.isNone then ({ s.acceptDirect sent with directEditing := none }.save, [])
    else
      let s := { s with settings := { s.settings with direct := previous } }
      ({ s with directEditing := some (.restoring s.applyDirect) },
        s.applyDirect.toList.map .updateSessionDirect)
  | some (.restoring sent) =>
    ({ (if ok then s.acceptDirect sent else s) with directEditing := none }, [])
  | none => (s, [])

/-! ## Steps -/

/-- The app starts: `migrateVpnState` over what was saved last. -/
def launch (now : Nat) (direct : Direct) : Feature :=
  let settings := { normalizeVpn s.disk.settings with direct := direct }
  { new now with
    settings := settings
    secrets := (settings.nodes.map Node.id).filter fun id => s.disk.secrets.contains id
    disk := s.disk
    store := s.store
    uuids := s.uuids }

/-- One event, with the requests it sends. -/
def step (lower : Text → Text) (s : Feature) : FeatureEvent → Feature × List Request
  | .launch now direct => (s.launch now direct, [])
  | .setWanted on => s.setWanted on
  | .wantedResumed index => (s.wantedResumed index, [])
  | .reconsider => s.drive .reconsider
  | .onResume => s.drive .onResume
  | .resume =>
    if s.settings.wantConnected && s.settings.selectedVpnNode.isSome then s.drive .connect
    else (s, [])
  | .shutdown => s.drive .shutdown
  | .turn env => if s.resumes then (s, []) else s.drive (.turn (s.surroundings env))
  | .answered env result => (s.acceptStart result).drive (.answered (s.surroundings env) result)
  | .pollTimer => s.drive .pollTimer
  | .pollAnswered now result => s.drive (.pollAnswered now result)
  | .reconnectTimer => s.drive .reconnectTimer
  | .setTrafficMode mode =>
    if trafficModeLimited s.settings.selectedVpnNode mode then (s, [])
    else
      ({ s with settings := { s.settings with trafficMode := mode } }.saveAndReconnect, [])
  | .setRemoteDns enabled =>
    ({ s with settings := { s.settings with remoteDns := enabled } }.saveAndReconnect, [])
  | .setKillSwitch enabled =>
    ({ s with settings := { s.settings with killSwitch := enabled } }.saveAndReconnect, [])
  | .addNode node =>
    (if s.fresh node.id then
      { s with uuids := node.id :: s.uuids, nodeEdits := s.nodeEdits ++ [.add node] }
    else s, [])
  | .selectNode id => ({ s with nodeEdits := s.nodeEdits ++ [.select id] }, [])
  | .removeNode id => ({ s with nodeEdits := s.nodeEdits ++ [.remove id] }, [])
  | .nodeTurn => (s.nodeTurn, [])
  | .nodeResumed => (s.nodeResumed, [])
  | .addRule input id =>
    (if s.fresh id then addRule lower { s with uuids := id :: s.uuids } input id else s, [])
  | .setRuleNode id nodeId => (s.setRuleNode id nodeId, [])
  | .setRuleEnabled id enabled =>
    ({ s with ruleEdits := s.ruleEdits ++ [.setEnabled id enabled] }, [])
  | .removeRule id => ({ s with ruleEdits := s.ruleEdits ++ [.remove id] }, [])
  | .ruleTurn => s.ruleTurn
  | .ruleAnswered ok => s.ruleAnswered ok
  | .ruleResumed => (s.ruleResumed, [])
  | .setDirectEnabled enabled => (s.setDirectEnabled enabled, [])
  | .setDirectList id on => (s.setDirectList id on, [])
  | .updateDirectLists ids => (s.download ⟨ids, false, .keep⟩, [])
  | .addDirectEntry entry =>
    (if s.settings.direct.entries.any fun item =>
        item.kind = entry.kind && item.value = entry.value then s
      else s.commit (.addEntry entry), [])
  | .setDirectEntryEnabled id enabled => (s.commit (.setEntryEnabled id enabled), [])
  | .removeDirectEntry id => (s.commit (.removeEntry id), [])
  | .downloaded index entries => (s.downloaded index entries, [])
  | .directTurn => s.directTurn
  | .directAnswered ok => s.directAnswered ok

/-! ## What the calls of the direct list change -/

/-- Nothing but the queue of the edits, the downloads and the downloaded lists changes. -/
def Commits (s s' : Feature) : Prop :=
  ∃ directEdits downloads store, s' = { s with directEdits, downloads, store }

theorem commits_download (d : Downloads) : s.Commits (s.download d) := by
  rw [download]
  generalize (if d.strict then d.todo.dropWhile s.has else d.todo) = todo
  cases todo <;> exact ⟨_, _, _, rfl⟩

theorem commits_downloaded (index : Nat) (entries : Option (List Text)) :
    s.Commits (s.downloaded index entries) := by
  have hrest (store) (downloads) (d) :
      s.Commits (Feature.download { s with store, downloads } d) := by
    obtain ⟨directEdits, downloads', store', heq⟩ := commits_download { s with store, downloads } d
    exact ⟨directEdits, downloads', store', heq⟩
  rw [downloaded]
  split
  · exact ⟨_, _, _, rfl⟩
  split
  · exact ⟨_, _, _, rfl⟩
  split
  · exact hrest _ _ _
  · split
    · exact ⟨_, _, _, rfl⟩
    · exact hrest s.store _ _

theorem step_commits {lower : Text → Text} (s : Feature) {e : FeatureEvent}
    (he : e.commits = true) :
    s.Commits (s.step lower e).1 := by
  cases e with
  | setDirectEnabled enabled =>
    show s.Commits (s.setDirectEnabled enabled)
    rw [setDirectEnabled]
    split
    · exact ⟨_, _, _, rfl⟩
    · exact commits_download _ _
  | setDirectList id on =>
    show s.Commits (s.setDirectList id on)
    rw [setDirectList]
    split
    · exact ⟨_, _, _, rfl⟩
    split
    · exact commits_download _ _
    · exact ⟨_, _, _, rfl⟩
  | updateDirectLists ids => exact commits_download _ _
  | addDirectEntry entry =>
    rw [step]
    split <;> exact ⟨_, _, _, rfl⟩
  | setDirectEntryEnabled id enabled | removeDirectEntry id => exact ⟨_, _, _, rfl⟩
  | downloaded index entries => exact commits_downloaded s index entries
  | _ => cases he

end Feature

end GamePath.Electron.Vpn
