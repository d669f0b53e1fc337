import ServerFoundation.Data.OrderedMap
import ServerFoundation.Data.TransitionSystem
import ServerFoundation.Http.RoutePath

/-!
# The router

Routes are kept in the order of their registration, and once more for every method in the
order in which requests try them. Restricting the router to some controllers drops the
routes of all others and builds the indexes again. The parameters and middlewares of a
route take no part in this and are left out.
-/

namespace ServerFoundation.Http

/-- A class has an identity of its own; its name is for messages. -/
structure ControllerClass where
  id : ℕ
  name : String
deriving DecidableEq, Repr

/-- `RouteMetadata`. -/
structure RouteMetadata where
  method : RouteMethod
  path : String
  propertyKey : String
deriving DecidableEq, Repr

/-- A class with the metadata of its decorators. -/
structure Controller where
  controllerClass : ControllerClass
  path : String
  routes : List RouteMetadata
deriving DecidableEq, Repr

/-- `HttpRoutePlan`. -/
structure HttpRoutePlan where
  method : RouteMethod
  path : String
  regex : String
  paramNames : List String
  controllerClass : ControllerClass
  methodName : String
deriving DecidableEq, Repr

/-- `HttpRouteDispatchEntry`. -/
structure DispatchEntry where
  route : HttpRoutePlan
  segments : List RouteSegment
deriving DecidableEq, Repr

/-- `HttpRouter`. -/
structure HttpRouter where
  routes : List HttpRoutePlan
  dispatchRoutes : OrderedMap String (List DispatchEntry)
  routeSegments : OrderedMap HttpRoutePlan (List RouteSegment)
  routePatterns : OrderedMap String HttpRoutePlan
  restrictedControllers : Option (List ControllerClass)

/-- `describeRoute`. -/
def describeRoute (route : HttpRoutePlan) : String :=
  route.controllerClass.name ++ "." ++ route.methodName ++ " (" ++ route.method.text ++ " " ++
    route.path ++ ")"

/-- The plan of a route, with its segments. -/
def Controller.plan (controller : Controller) (route : RouteMetadata) :
    HttpRoutePlan × List RouteSegment :=
  let path := joinPaths controller.path route.path
  let compiled := compilePath path
  ({ method := route.method
     path := path
     regex := compiled.regex
     paramNames := compiled.paramNames
     controllerClass := controller.controllerClass
     methodName := route.propertyKey },
    compiled.segments)

/-- `findIndex` of the first entry that the new one goes before, and `splice` there. -/
def insertEntry (entry : DispatchEntry) : List DispatchEntry → List DispatchEntry
  | [] => [entry]
  | current :: entries =>
      if compareRouteSpecificity entry.segments current.segments < 0 then
        entry :: current :: entries
      else current :: insertEntry entry entries

/-- What a request is answered with as far as the router decides it. -/
inductive MatchOutcome where
  | notFound
  | badRequest (route : HttpRoutePlan) (message : String)
  | matched (route : HttpRoutePlan) (pathParams : OrderedMap String String)

namespace HttpRouter

/-- A router without routes. -/
def empty : HttpRouter := ⟨[], .empty, .empty, .empty, none⟩

/-- The entries for a method. -/
def dispatch (router : HttpRouter) (method : String) : List DispatchEntry :=
  (router.dispatchRoutes.get? method).getD []

/-- `insertDispatchRoute`. -/
def insertDispatchRoute (router : HttpRouter) (route : HttpRoutePlan)
    (segments : List RouteSegment) : HttpRouter :=
  { router with
    dispatchRoutes := router.dispatchRoutes.set route.method.text
      (insertEntry ⟨route, segments⟩ (router.dispatch route.method.text)) }

/-- `this.routePatterns.set`, followed by `insertDispatchRoute`. -/
def indexRoute (router : HttpRouter) (route : HttpRoutePlan) (segments : List RouteSegment) :
    HttpRouter :=
  { router with
    routePatterns := router.routePatterns.set (routePatternKey route.method segments) route
  }.insertDispatchRoute route segments

/-- `addRoute`. -/
def addRoute (router : HttpRouter) (route : HttpRoutePlan) (segments : List RouteSegment) :
    Except String HttpRouter :=
  match router.routePatterns.get? (routePatternKey route.method segments) with
  | some existing =>
      .error ("Ambiguous HTTP route " ++ route.method.text ++ " " ++ route.path ++ ": " ++
        describeRoute route ++ " conflicts with " ++ describeRoute existing)
  | none =>
      .ok ({ router with
        routes := router.routes ++ [route]
        routeSegments := router.routeSegments.set route segments }.indexRoute route segments)

/-- `rebuildRouteIndexes`. -/
def rebuildRouteIndexes (router : HttpRouter) : Except String HttpRouter :=
  router.routes.foldlM
    (fun rebuilt route =>
      match rebuilt.routeSegments.get? route with
      | none => .error ("Missing route segments for " ++ describeRoute route)
      | some segments => .ok (rebuilt.indexRoute route segments))
    { router with dispatchRoutes := .empty, routePatterns := .empty }

/-- `restrictControllers`. -/
def restrictControllers (router : HttpRouter) (controllerClasses : List ControllerClass) :
    Except String HttpRouter :=
  { router with
    restrictedControllers := some controllerClasses
    routes := router.routes.filter fun route => route.controllerClass ∈ controllerClasses
  }.rebuildRouteIndexes

/-- The routes of the class are registered. -/
def Permits (router : HttpRouter) (controllerClass : ControllerClass) : Prop :=
  ∀ classes, router.restrictedControllers = some classes → controllerClass ∈ classes

instance (router : HttpRouter) (controllerClass : ControllerClass) :
    Decidable (router.Permits controllerClass) :=
  match restricted : router.restrictedControllers with
  | none => .isTrue (by simp [Permits, restricted])
  | some classes => decidable_of_iff (controllerClass ∈ classes) (by simp [Permits, restricted])

/-- A planned route is added. -/
def addPlan (router : HttpRouter) (plan : HttpRoutePlan × List RouteSegment) :
    Except String HttpRouter :=
  router.addRoute plan.1 plan.2

/-- `registerController`. -/
def registerController (router : HttpRouter) (controller : Controller) :
    Except String HttpRouter :=
  if router.Permits controller.controllerClass then
    (controller.routes.map controller.plan).foldlM addPlan router
  else .ok router

/-- The first route that matches, with the captured groups. -/
def select (router : HttpRouter) (method path : String) :
    Option (HttpRoutePlan × List (List Char)) :=
  (router.dispatch method).findSome? fun entry =>
    (matchRoutePath entry.route.regex path).map fun groups => (entry.route, groups)

/-- The loop over the names of the parameters; `decodeURIComponent` may throw. -/
def decodeParams (decodeURIComponent : String → Option String) (route : HttpRoutePlan) :
    List String → List (List Char) → OrderedMap String String → MatchOutcome
  | [], _, pathParams => .matched route pathParams
  | name :: names, groups, pathParams =>
      match decodeURIComponent (String.ofList (groups.head?.getD [])) with
      | none =>
          .badRequest route ("Invalid URL encoding for path parameter \"" ++ name ++ "\"")
      | some value =>
          decodeParams decodeURIComponent route names groups.tail (pathParams.set name value)

/-- `match`. -/
def matchRequest (decodeURIComponent : String → Option String) (router : HttpRouter)
    (method path : String) : MatchOutcome :=
  match router.select method path with
  | none => .notFound
  | some (route, groups) => decodeParams decodeURIComponent route route.paramNames groups .empty

end HttpRouter

/-- The calls that change a router. -/
inductive RouterCall where
  | addRoute (controller : Controller) (route : RouteMetadata)
  | restrictControllers (controllerClasses : List ControllerClass)

/-- The routers of one application, one route at a time: a call of `registerController` may stop
after some of its routes. -/
def routerSystem : TransitionSystem HttpRouter RouterCall where
  Init router := router = .empty
  Step before call after :=
    match call with
    | .addRoute controller route =>
        before.Permits controller.controllerClass ∧
          before.addPlan (controller.plan route) = .ok after
    | .restrictControllers controllerClasses =>
        before.restrictControllers controllerClasses = .ok after

end ServerFoundation.Http
