import NamedRelay.Face.Basic
import NamedRelay.Name.Matching

/-!
# Routes

The forwarding table lists routes in the order they were added. A route leads the interests under
its name to a face, shows them to an observer, or both. Every matching route is a next hop.
-/

namespace NamedRelay

structure Route where
  name : Name
  face : Option FaceId
  tap : Option String
deriving DecidableEq

/-- The two names are of one family and equal. -/
def Name.isSame (a b : Name) : Bool :=
  a.suite == b.suite && a.isExactMatch b

/-- The route's components lead the name, and the families agree. -/
def Route.covers (route : Route) (name : Name) : Bool :=
  route.name.suite == name.suite && route.name.leads name

structure ForwardingTable where
  routes : List Route := []

namespace ForwardingTable

def hasRoute (t : ForwardingTable) (name : Name) : Bool :=
  t.routes.any fun route => route.name.isSame name

def modify (t : ForwardingTable) (name : Name) (change : Route → Route) : ForwardingTable :=
  ⟨t.routes.modify (t.routes.findIdx fun route => route.name.isSame name) change⟩

/-- Leads a name to a face. A route of the same name is redirected, and the flag says so. -/
def add (t : ForwardingTable) (name : Name) (face : FaceId) : Bool × ForwardingTable :=
  if t.hasRoute name then (true, t.modify name fun route => { route with face := some face })
  else (false, ⟨t.routes ++ [⟨name, some face, none⟩]⟩)

/-- Attaches an observer to a name, on a route of its own if there is none. -/
def addTap (t : ForwardingTable) (name : Name) (tap : String) : ForwardingTable :=
  if t.hasRoute name then t.modify name fun route => { route with tap := some tap }
  else ⟨t.routes ++ [⟨name, none, some tap⟩]⟩

/-- The route agrees with every filter given. -/
def selects (name : Option Name) (face : Option FaceId) (route : Route) : Bool :=
  name.all (fun n => route.name.isSame n) && face.all fun f => route.face == some f

/-- Removes the first route that agrees with every filter given. -/
def remove (t : ForwardingTable) (name : Option Name) (face : Option FaceId) :
    Except Error ForwardingTable :=
  if t.routes.any (selects name face) then .ok ⟨t.routes.eraseP (selects name face)⟩
  else .error (.notFound .route)

def removeFace (t : ForwardingTable) (face : FaceId) : ForwardingTable :=
  ⟨t.routes.filter fun route => route.face != some face⟩

/-- The routes whose names lead `name`. -/
def covering (t : ForwardingTable) (name : Name) : List Route :=
  t.routes.filter fun route => route.covers name

end ForwardingTable

end NamedRelay
