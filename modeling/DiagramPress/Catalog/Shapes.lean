-- The catalog of shapes: friendly type names such as `uml.class`, each with the
-- style text a cell of that type starts from.
import DiagramPress.Catalog.Distance
import DiagramPress.Text.Case
import DiagramPress.Text.Words
import DiagramPress.TextMap

namespace DiagramPress

namespace Catalog

/-! ## The shapes that come with the program -/

/-- Shapes of flow charts. -/
def flowchartShapes : List (String × String) :=
  [
    ("flowchart.process", "rounded=1;whiteSpace=wrap;html=1;"),
    ("flowchart.decision", "rhombus;whiteSpace=wrap;html=1;"),
    ("flowchart.terminal", "rounded=1;whiteSpace=wrap;html=1;arcSize=50;"),
    ("flowchart.io",
      "shape=parallelogram;perimeter=parallelogramPerimeter;whiteSpace=wrap;html=1;fixedSize=1;"),
    ("flowchart.document", "shape=document;whiteSpace=wrap;html=1;boundedLbl=1;"),
    ("flowchart.database", "shape=cylinder3;whiteSpace=wrap;html=1;boundedLbl=1;size=15;"),
    ("flowchart.delay", "shape=delay;whiteSpace=wrap;html=1;"),
    ("flowchart.merge", "triangle;whiteSpace=wrap;html=1;"),
    ("flowchart.predefined-process", "shape=process;whiteSpace=wrap;html=1;"),
    ("flowchart.manual-input", "shape=manualInput;whiteSpace=wrap;html=1;"),
    ("flowchart.preparation",
      "shape=hexagon;perimeter=hexagonPerimeter2;whiteSpace=wrap;html=1;fixedSize=1;"),
    ("flowchart.data-store", "shape=datastore;whiteSpace=wrap;html=1;"),
    ("flowchart.or", "shape=orEllipse;perimeter=ellipsePerimeter;whiteSpace=wrap;html=1;"),
    ("flowchart.summing-junction",
      "shape=sumEllipse;perimeter=ellipsePerimeter;whiteSpace=wrap;html=1;"),
    ("flowchart.display", "shape=display;whiteSpace=wrap;html=1;"),
    ("flowchart.note", "shape=note;whiteSpace=wrap;html=1;"),
    ("flowchart.card", "shape=card;whiteSpace=wrap;html=1;"),
    ("flowchart.cloud", "ellipse;shape=cloud;whiteSpace=wrap;html=1;")]

/-- Shapes of class and state diagrams. -/
def umlShapes : List (String × String) :=
  [
    ("uml.class", "swimlane;fontStyle=1;align=center;startSize=26;html=1;whiteSpace=wrap;"),
    ("uml.interface",
      "swimlane;fontStyle=1;align=center;startSize=26;html=1;whiteSpace=wrap;childLayout=stackLayout;horizontal=1;horizontalStack=0;resizeParent=1;resizeParentMax=0;collapsible=1;marginBottom=0;"),
    ("uml.actor", "shape=umlActor;verticalLabelPosition=bottom;verticalAlign=top;html=1;"),
    ("uml.usecase", "ellipse;whiteSpace=wrap;html=1;"),
    ("uml.component", "shape=component;align=left;spacingLeft=36;html=1;whiteSpace=wrap;"),
    ("uml.package",
      "shape=folder;fontStyle=1;tabWidth=110;tabHeight=30;tabPosition=left;html=1;whiteSpace=wrap;"),
    ("uml.node", "shape=cube;whiteSpace=wrap;html=1;size=10;"),
    ("uml.object", "rounded=0;whiteSpace=wrap;html=1;"),
    ("uml.state", "rounded=1;whiteSpace=wrap;html=1;arcSize=40;"),
    ("uml.initial-state",
      "ellipse;html=1;shape=doubleCircle;whiteSpace=wrap;aspect=fixed;fillColor=#000000;strokeColor=#ffffff;"),
    ("uml.final-state",
      "ellipse;html=1;shape=doubleCircle;whiteSpace=wrap;aspect=fixed;fillColor=#000000;strokeColor=#000000;"),
    ("uml.activity", "rounded=1;whiteSpace=wrap;html=1;"),
    ("uml.decision", "rhombus;whiteSpace=wrap;html=1;"),
    ("uml.note", "shape=note;whiteSpace=wrap;html=1;size=14;")]

/-- Devices and places of a network. -/
def networkShapes : List (String × String) :=
  [
    ("network.server", "shape=mxgraph.cisco.servers.standard_server;html=1;whiteSpace=wrap;"),
    ("network.router", "shape=mxgraph.cisco.routers.router;html=1;whiteSpace=wrap;"),
    ("network.switch", "shape=mxgraph.cisco.switches.workgroup_switch;html=1;whiteSpace=wrap;"),
    ("network.firewall", "shape=mxgraph.cisco.firewalls.firewall;html=1;whiteSpace=wrap;"),
    ("network.cloud", "ellipse;shape=cloud;whiteSpace=wrap;html=1;"),
    ("network.user", "shape=mxgraph.cisco.people.standing_man;html=1;whiteSpace=wrap;"),
    ("network.laptop",
      "shape=mxgraph.cisco.computers_and_peripherals.laptop;html=1;whiteSpace=wrap;"),
    ("network.desktop",
      "shape=mxgraph.cisco.computers_and_peripherals.pc;html=1;whiteSpace=wrap;"),
    ("network.database", "shape=cylinder3;whiteSpace=wrap;html=1;boundedLbl=1;size=15;"),
    ("network.internet", "shape=mxgraph.cisco.misc.cloud;html=1;whiteSpace=wrap;"),
    ("network.load-balancer", "shape=mxgraph.cisco.misc.aCSicon;html=1;whiteSpace=wrap;"),
    ("network.wireless", "shape=mxgraph.cisco.wireless.wireless_bridge;html=1;whiteSpace=wrap;")]

/-- Services of one cloud, each with the name of its icon. -/
def azureIcons : List (String × String) :=
  [
    ("azure.vm", "virtual_machine"),
    ("azure.app-service", "app_service"),
    ("azure.sql-database", "sql_database"),
    ("azure.storage", "storage"),
    ("azure.functions", "function_apps"),
    ("azure.cosmos-db", "cosmos_db"),
    ("azure.key-vault", "key_vaults"),
    ("azure.aks", "kubernetes"),
    ("azure.load-balancer", "load_balancer_generic"),
    ("azure.vnet", "virtual_network"),
    ("azure.api-management", "api_management"),
    ("azure.service-bus", "service_bus"),
    ("azure.event-hub", "event_hubs"),
    ("azure.container-registry", "container_registries"),
    ("azure.active-directory", "active_directory"),
    ("azure.monitor", "azure_monitor"),
    ("azure.cdn", "content_delivery_network"),
    ("azure.redis-cache", "cache_redis"),
    ("azure.devops", "devops"),
    ("azure.logic-apps", "logic_apps")]

/-- Services of another cloud, each with the name of its icon. -/
def gcpIcons : List (String × String) :=
  [
    ("gcp.compute-engine", "compute_engine"),
    ("gcp.cloud-functions", "cloud_functions"),
    ("gcp.cloud-run", "cloud_run"),
    ("gcp.gke", "google_kubernetes_engine"),
    ("gcp.cloud-storage", "cloud_storage"),
    ("gcp.bigquery", "bigquery"),
    ("gcp.cloud-sql", "cloud_sql"),
    ("gcp.firestore", "cloud_firestore"),
    ("gcp.pub-sub", "cloud_pubsub"),
    ("gcp.cloud-cdn", "cloud_cdn"),
    ("gcp.load-balancing", "cloud_load_balancing"),
    ("gcp.vpc", "virtual_private_cloud"),
    ("gcp.cloud-dns", "cloud_dns"),
    ("gcp.iam", "cloud_iam"),
    ("gcp.cloud-build", "cloud_build"),
    ("gcp.cloud-logging", "cloud_logging"),
    ("gcp.cloud-monitoring", "cloud_monitoring"),
    ("gcp.api-gateway", "api_gateway"),
    ("gcp.dataflow", "cloud_dataflow"),
    ("gcp.vertex-ai", "ai_platform")]

/-- What the icons of the first cloud have in common. -/
def azureStyle (icon : String) : String :=
  "aspect=fixed;html=1;align=center;shadow=0;dashed=0;spacingTop=3;shape=mxgraph.azure."
    ++ icon ++ ";"

def gcpStyle (icon : String) : String :=
  "shape=mxgraph.gcp2." ++ icon ++ ";html=1;whiteSpace=wrap;"

/-- Puts a text into a sorted list without repetitions. -/
def insertName (name : String) : List String → List String
  | [] => [name]
  | n :: rest =>
    if name < n then name :: n :: rest
    else if name = n then n :: rest
    else n :: insertName name rest

end Catalog

/-- Type names with their style texts. -/
structure ShapeCatalog where
  styles : TextMap

namespace ShapeCatalog

/-! ## Building a catalog -/

/-- A catalog of the given entries; of two with one name the later one counts. -/
def ofList (entries : List (String × String)) : ShapeCatalog :=
  ⟨TextMap.ofList entries⟩

def builtin : ShapeCatalog :=
  ofList (Catalog.flowchartShapes ++ Catalog.umlShapes ++ Catalog.networkShapes ++
    Catalog.azureIcons.map (fun (name, icon) => (name, Catalog.azureStyle icon)) ++
    Catalog.gcpIcons.map (fun (name, icon) => (name, Catalog.gcpStyle icon)))

/-- Names and style texts in the order of the names. -/
def entries (shapes : ShapeCatalog) : List (String × String) := shapes.styles.entries

/-! ## Looking up -/

/-- The style text of a type name. -/
def resolve? (shapes : ShapeCatalog) (name : String) : Option String :=
  shapes.styles.get? name

/-- A suggestion is at most this many edits away. -/
def farthestSuggestion : Nat := 3

/-- The distance of two names, compared in lower case. -/
def nameDistance (a b : String) : Nat :=
  Catalog.distance (Text.lower a.toList) (Text.lower b.toList)

/-- Keeps the better of the best name so far and the next one. -/
def nearer (name : String) (best : Option (String × Nat)) (key : String) :
    Option (String × Nat) :=
  let d := nameDistance name key
  if farthestSuggestion < d then best
  else
    match best with
    | none => some (key, d)
    | some (_, least) => if d < least then some (key, d) else best

/-- The nearest name of the catalog, the first one in its order, if one is near enough. -/
def suggest? (shapes : ShapeCatalog) (name : String) : Option String :=
  ((shapes.entries.map (·.1)).foldl (nearer name) none).map (·.1)

/-- The parts before the first point of the names, sorted. -/
def categories (shapes : ShapeCatalog) : List String :=
  shapes.entries.foldl (fun found (key, _) =>
    match Text.splitOnce? '.' key.toList with
    | some ([], _) => found
    | some (category, _) => Catalog.insertName (String.ofList category) found
    | none => found) []

/-- The entries of a category. -/
def inCategory (shapes : ShapeCatalog) (category : String) : List (String × String) :=
  shapes.entries.filter fun (key, _) => (category.toList ++ ['.']).isPrefixOf key.toList

end ShapeCatalog

end DiagramPress
