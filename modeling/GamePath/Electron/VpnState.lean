import GamePath.Electron.VpnSession
import GamePath.Lib.JsString
import GamePath.Lib.Records

/-!
# The saved settings of the VPN (`vpn-state.cjs`, `vpn-direct-state.cjs`)

The nodes, the selection, the targets and the direct list, and what a session makes of them. The
functions are over settings whose fields have their types; a limitation is told by whether there is
one. `toLocaleLowerCase` is a parameter.
-/

namespace GamePath.Electron.Vpn

open Engine.Direct (Text)
open Lib

/-! ## The settings -/

/-- `RULE_KINDS`. -/
inductive RuleKind where
  | application
  | folder
  | hostname
  | ip
  deriving DecidableEq

/-- A saved node. -/
structure Node where
  id : Text
  name : Text
  kind : NodeKind
  host : Text
  enabled : Bool
  deriving DecidableEq

/-- A saved target; without a node it follows the default node. -/
structure Rule where
  id : Text
  kind : RuleKind
  value : Text
  label : Text
  enabled : Bool
  nodeId : Option Text
  deriving DecidableEq

/-- The kind of a direct entry, and of a downloaded list. -/
inductive DirectKind where
  | ip
  | domain
  deriving DecidableEq

/-- A site or an address of the direct list. -/
structure DirectEntry where
  id : Text
  kind : DirectKind
  value : Text
  enabled : Bool
  deriving DecidableEq

/-- The direct list as saved. -/
structure Direct where
  enabled : Bool
  lists : List Text
  entries : List DirectEntry
  deriving DecidableEq

/-- `state.vpn`. -/
structure Settings where
  nodes : List Node
  selectedNodeId : Option Text
  trafficMode : TrafficMode
  remoteDns : Bool
  killSwitch : Bool
  rules : List Rule
  direct : Direct
  wantConnected : Bool
  deriving DecidableEq

def defaultVpn : Settings := ⟨[], none, .split, true, false, [], ⟨false, [], []⟩, false⟩

def maxVpnNodes : Nat := 8

def normalizeRule (rule : Rule) : Option Rule :=
  let value := JsString.trim rule.value
  if value.isEmpty || rule.id.isEmpty then none
  else
    some { rule with
      value := value
      label := if rule.label.isEmpty then value else rule.label
      nodeId := rule.nodeId.filter fun id => !id.isEmpty }

/-- The nodes `normalizeVpn` keeps. -/
def normalizeNodes (saved : List Node) : List Node :=
  Records.distinctBy Node.id [] (saved.filter fun node => !node.id.isEmpty)

/-- The selection `normalizeVpn` keeps or makes. -/
def normalizeSelection (nodes : List Node) (saved : Option Text) : Option Text :=
  if nodes.any fun node => some node.id = saved then saved
  else ((nodes.find? Node.enabled).or nodes.head?).map Node.id

/-- `normalizeVpn`, but for the direct list. -/
def normalizeVpn (saved : Settings) : Settings :=
  let nodes := normalizeNodes saved.nodes
  let selected := normalizeSelection nodes saved.selectedNodeId
  let hasNode (id : Text) : Bool := nodes.any fun node => node.id = id
  { saved with
    nodes := nodes.map fun node => { node with enabled := some node.id = selected }
    selectedNodeId := selected
    rules := (Records.distinctBy Rule.id [] (saved.rules.filterMap normalizeRule)).map fun rule =>
      { rule with nodeId := rule.nodeId.filter hasNode }
    wantConnected := saved.wantConnected && selected.isSome }

namespace Settings

variable (vpn : Settings)

/-- There is a node of the id. -/
def hasNode (id : Text) : Bool := vpn.nodes.any fun node => node.id = id

def selectedVpnNode : Option Node := vpn.nodes.find? fun node => some node.id = vpn.selectedNodeId

def ruleNode (rule : Rule) : Option Node :=
  (vpn.nodes.find? fun node => some node.id = rule.nodeId).or vpn.selectedVpnNode

/-- The nodes of the enabled targets. -/
def usedNodes : List (Option Text) :=
  (vpn.rules.filter Rule.enabled).map fun rule => (vpn.ruleNode rule).map Node.id

def sessionNodes : List Node :=
  match vpn.selectedVpnNode with
  | none => []
  | some fallback =>
    if vpn.trafficMode ≠ .split then [fallback]
    else fallback :: vpn.nodes.filter fun node =>
      node.id ≠ fallback.id && vpn.usedNodes.contains (some node.id)

end Settings

/-- What the service is told of a target. -/
structure RuleSpec where
  kind : RuleKind
  value : Text
  node : Nat
  deriving DecidableEq

/-- The place of a node among those a session connects. -/
def place (nodes : List Text) (node : Option Text) : Nat :=
  (node.bind fun id => nodes.idxOf? id).getD 0

/-- `vpnRuleSpecs`, of the nodes' ids. -/
def Settings.vpnRuleSpecs (vpn : Settings) (nodes : List Text) : List RuleSpec :=
  (vpn.rules.filter Rule.enabled).map fun rule =>
    ⟨rule.kind, rule.value, place nodes ((vpn.ruleNode rule).map Node.id)⟩

/-! ## Limitations -/

/-- `nodeSetLimitation`. -/
def nodeSetLimited (nodes : List Node) : Bool :=
  decide (1 < nodes.length) &&
    (decide (maxVpnNodes < nodes.length) || nodes.any fun node => node.kind = .l2tp)

/-- A host of this PC. -/
def localHost (host : Text) : Bool :=
  host.map Char.toLower = ['l', 'o', 'c', 'a', 'l', 'h', 'o', 's', 't'] ||
    ['1', '2', '7', '.'].isPrefixOf host ||
    [[':', ':', '1'], ['[', ':', ':', '1'], [':', ':', '1', ']'],
      ['[', ':', ':', '1', ']']].contains
      host

/-- `trafficModeLimitation`. -/
def trafficModeLimited (node : Option Node) (trafficMode : TrafficMode) : Bool :=
  decide (trafficMode = .all) && node.any fun node =>
    node.kind = .adapter || (node.kind = .socks5 && localHost node.host)

/-- `ruleLimitation`. -/
def ruleLimited (node : Option Node) (trafficMode : TrafficMode) (kind : RuleKind) (value : Text) :
    Bool :=
  (node.any fun node => node.kind = .l2tp) && decide (trafficMode = .split) &&
    match kind with
    | .application | .folder => true
    | .hostname => ['*', '.'].isPrefixOf value
    | .ip => false

/-- `assignedLimitation`. -/
def Settings.assignedLimited (vpn : Settings) (rule : Rule) : Bool :=
  ruleLimited (vpn.ruleNode rule) vpn.trafficMode rule.kind rule.value

def Settings.unroutableRules (vpn : Settings) : List Rule :=
  vpn.rules.filter fun rule => rule.enabled && vpn.assignedLimited rule

/-! ## Targets -/

/-- What the window asks to add. The kind is one of `RULE_KINDS` or none of them. -/
structure RuleInput where
  kind : Option RuleKind
  value : Text
  label : Text
  nodeId : Option Text

/-- What follows the last slash. -/
def baseName (value : Text) : Text :=
  (value.reverse.takeWhile fun c => c ≠ '/' && c ≠ '\\').reverse

def createRule (input : RuleInput) (id : Text) : Option Rule :=
  match input.kind with
  | none => none
  | some kind =>
    let value := JsString.trim input.value
    let label := JsString.trim input.label
    if value.isEmpty then none
    else
      let label := if !label.isEmpty then label
        else if !(baseName value).isEmpty then baseName value else value
      some ⟨id, kind, value, label, true, input.nodeId.filter fun id => !id.isEmpty⟩

def sameTarget (lower : Text → Text) (left right : Rule) : Bool :=
  left.kind = right.kind && lower left.value = lower right.value

/-! ## The direct list -/

/-- `CATALOG`, of the lists' ids and kinds. -/
def catalog : List (Text × DirectKind) :=
  [("ir-ip".toList, .ip), ("ir-sites".toList, .domain)]

/-- What the engine is told of the direct list. -/
structure DirectSpec where
  networks : List Text
  domains : List Text
  deriving DecidableEq

/-- The networks, or the domains, of the lists and the entries of the direct list. -/
def Direct.targets (direct : Direct) (entriesOf : Text → List Text) (kind : DirectKind) :
    List Text :=
  let listKind (id : Text) : DirectKind := (catalog.lookup id).getD .domain
  let entryTarget (entry : DirectEntry) : Text :=
    match entry.kind with
    | .ip => if entry.value.contains '/' then entry.value else entry.value ++ ['/', '3', '2']
    | .domain => ['*', '.'] ++ entry.value
  ((direct.lists.filter fun id => listKind id = kind).flatMap entriesOf ++
    (direct.entries.filter fun entry => entry.enabled && entry.kind =
      kind).map entryTarget).eraseDups

def directSpec (direct : Direct) (entriesOf : Text → List Text) : Option DirectSpec :=
  let networks := direct.targets entriesOf .ip
  let domains := direct.targets entriesOf .domain
  if !direct.enabled || (networks.isEmpty && domains.isEmpty) then none
  else some ⟨networks, domains⟩

/-- `directLimitation`. -/
def directLimited (node : Option Node) : Bool := node.any fun node => node.kind = .l2tp

end GamePath.Electron.Vpn
