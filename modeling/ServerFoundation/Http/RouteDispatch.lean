import ServerFoundation.Http.RouterIndexes

/-!
# Which route a request gets

Of the routes that match a request one goes before all others, and the router selects it.
The selection therefore depends on the set of routes only, and not on the order in which
they were registered or on when the router was restricted.
-/

namespace ServerFoundation.Http

/-- The route matches the path. -/
def HttpRoutePlan.Matches (route : HttpRoutePlan) (path : String) : Prop :=
  (matchRoutePath route.regex path).isSome

/-- The plans of all routes of the controllers. -/
def plansOf (controllers : List Controller) : List HttpRoutePlan :=
  controllers.flatMap fun controller => controller.routes.map fun route => (controller.plan route).1

theorem HttpRoutePlan.IsCompiled.matches_iff {route : HttpRoutePlan} (compiled : route.IsCompiled)
    (path : String) : route.Matches path ↔ FitsAll route.segments (requestParts path) := by
  rw [HttpRoutePlan.Matches, compiled.regex]
  exact matchRoutePath_isSome_iff compiled.joined path

namespace HttpRouter

section Selection

variable {router other : HttpRouter}

theorem Sound.select_isSome_iff (sound : router.Sound) (method path : String) :
    (router.select method path).isSome ↔
      ∃ route ∈ router.routes, route.method.text = method ∧ route.Matches path := by
  simp only [select, List.findSome?_isSome_iff, Option.isSome_map, sound.indexed.entries]
  constructor
  · rintro ⟨entry, ⟨member, isMethod, -⟩, found⟩
    exact ⟨entry.route, member, isMethod, found⟩
  · rintro ⟨route, member, isMethod, found⟩
    exact ⟨⟨route, route.segments⟩, ⟨member, isMethod, rfl⟩, found⟩

theorem Sound.goesFirst_of_select (sound : router.Sound) {method path : String}
    {route : HttpRoutePlan} {groups : List (List Char)}
    (selected : router.select method path = some (route, groups)) :
    (route ∈ router.routes ∧ route.method.text = method ∧
        matchRoutePath route.regex path = some groups) ∧
      ∀ another ∈ router.routes, another.method.text = method → another.Matches path →
        another ≠ route → GoesFirst route.segments another.segments := by
  rcases List.findSome?_eq_some_iff.mp selected with ⟨before, entry, after, split, found,
    noneBefore⟩
  rcases Option.map_eq_some_iff.mp found with ⟨captured, isMatch, same⟩
  rw [Prod.mk.injEq] at same
  rcases same with ⟨rfl, rfl⟩
  have isEntry : entry ∈ router.dispatch method := by
    rw [split]
    exact List.mem_append_right _ List.mem_cons_self
  rcases (sound.indexed.entries _ _).mp isEntry with ⟨member, isMethod, isSegments⟩
  refine ⟨⟨member, isMethod, isMatch⟩, fun another isRoute sameMethod matchesPath differs => ?_⟩
  have inAfter : ⟨another, another.segments⟩ ∈ after := by
    have inDispatch : ⟨another, another.segments⟩ ∈ router.dispatch method :=
      (sound.indexed.entries _ _).mpr ⟨isRoute, sameMethod, rfl⟩
    rw [split] at inDispatch
    rcases List.mem_append.mp inDispatch with inBefore | inRest
    · have noMatch := noneBefore _ inBefore
      rw [Option.map_eq_none_iff] at noMatch
      rw [HttpRoutePlan.Matches, noMatch] at matchesPath
      cases matchesPath
    · rcases List.mem_cons.mp inRest with isSame | inAfter
      · exact absurd (congrArg DispatchEntry.route isSame) differs
      · exact inAfter
  have notBelow := sound.indexed.sorted method
  rw [split] at notBelow
  have ordered := (List.pairwise_cons.mp (List.pairwise_append.mp notBelow).2.1).1 _ inAfter
  rw [isSegments] at ordered
  have fits := ((sound.compiled _ member).matches_iff path).mp (by
    rw [HttpRoutePlan.Matches, isMatch]
    rfl)
  have otherFits := ((sound.compiled _ isRoute).matches_iff path).mp matchesPath
  rcases goesFirst_trichotomy fits otherFits with sameSegments | goesFirst | goesLater
  · have sameMethods : entry.route.method = another.method :=
      RouteMethod.text_injective (isMethod.trans sameMethod.symm)
    have sameKey : another.key = entry.route.key := by
      rw [HttpRoutePlan.key, HttpRoutePlan.key, sameMethods, sameSegments]
    exact absurd (sound.eq_of_key_eq isRoute member sameKey) differs
  · exact goesFirst
  · exact absurd goesLater.compare ordered

theorem Sound.select_congr (sound : router.Sound) (otherSound : other.Sound)
    (sameRoutes : ∀ route, route ∈ router.routes ↔ route ∈ other.routes) (method path : String) :
    router.select method path = other.select method path := by
  have sameIsSome : (router.select method path).isSome ↔ (other.select method path).isSome := by
    simp only [sound.select_isSome_iff, otherSound.select_isSome_iff, sameRoutes]
  cases selected : router.select method path with
  | none =>
      rw [selected] at sameIsSome
      exact (Option.not_isSome_iff_eq_none.mp (mt sameIsSome.mpr Bool.false_ne_true)).symm
  | some found =>
      rw [selected] at sameIsSome
      rcases Option.isSome_iff_exists.mp (sameIsSome.mp rfl) with ⟨otherFound, otherSelected⟩
      rw [otherSelected]
      rcases found with ⟨route, groups⟩
      rcases otherFound with ⟨otherRoute, otherGroups⟩
      rcases sound.goesFirst_of_select selected with ⟨⟨isRoute, isMethod, isMatch⟩, first⟩
      rcases otherSound.goesFirst_of_select otherSelected with
        ⟨⟨isOther, otherMethod, otherMatch⟩, otherFirst⟩
      have same : otherRoute = route := by
        by_contra differs
        have goesFirst := first otherRoute ((sameRoutes _).mpr isOther) otherMethod
          (by rw [HttpRoutePlan.Matches, otherMatch]; rfl) differs
        have goesLater := otherFirst route ((sameRoutes _).mp isRoute) isMethod
          (by rw [HttpRoutePlan.Matches, isMatch]; rfl) (Ne.symm differs)
        exact goesFirst.asymm goesLater
      rw [same] at otherMatch ⊢
      rw [isMatch, Option.some.injEq] at otherMatch
      rw [otherMatch]

theorem Sound.matchRequest_congr (sound : router.Sound) (otherSound : other.Sound)
    (sameRoutes : ∀ route, route ∈ router.routes ↔ route ∈ other.routes)
    (decodeURIComponent : String → Option String) (method path : String) :
    router.matchRequest decodeURIComponent method path =
      other.matchRequest decodeURIComponent method path := by
  unfold matchRequest
  rw [sound.select_congr otherSound sameRoutes]

theorem Sound.addPlan_error_iff (sound : router.Sound) (controller : Controller)
    (route : RouteMetadata) :
    (∃ message, router.addPlan (controller.plan route) = .error message) ↔
      ∃ existing ∈ router.routes, existing.method = (controller.plan route).1.method ∧
        ∀ path, existing.Matches path ↔ (controller.plan route).1.Matches path := by
  have compiled := controller.isCompiled_plan route
  rw [addPlan_plan, sound.addRoute_error_iff]
  generalize (controller.plan route).1 = plan at compiled ⊢
  constructor
  · rintro ⟨existing, member, sameKey⟩
    rcases routePatternKey_injective sameKey with ⟨sameMethod, sameSegments⟩
    refine ⟨existing, member, sameMethod, fun path => ?_⟩
    rw [(sound.compiled existing member).matches_iff, compiled.matches_iff, sameSegments]
  · rintro ⟨existing, member, sameMethod, same⟩
    refine ⟨existing, member, ?_⟩
    have sameSegments : existing.segments = plan.segments := by
      apply segments_eq_of_matches (sound.compiled existing member).joined compiled.joined
      intro path
      have samePath := same path
      rwa [(sound.compiled existing member).matches_iff, compiled.matches_iff] at samePath
    rw [HttpRoutePlan.key, HttpRoutePlan.key, sameMethod, sameSegments]

end Selection

section Registration

/-- The controllers before the restriction, the restriction if there is one, and the controllers
after it. -/
def registerAround (before : List Controller) (restriction : Option (List ControllerClass))
    (after : List Controller) : Except String HttpRouter := do
  let registered ← before.foldlM registerController .empty
  let restricted ←
    match restriction with
    | none => .ok registered
    | some classes => registered.restrictControllers classes
  after.foldlM registerController restricted

variable {router : HttpRouter}

/-- The controllers whose routes are registered. -/
def permitted (router : HttpRouter) (controllers : List Controller) : List Controller :=
  controllers.filter fun controller => router.Permits controller.controllerClass

/-- Two routes with different keys. -/
def DifferentKeys (first second : HttpRoutePlan) : Prop := first.key ≠ second.key

theorem plansOf_cons (controller : Controller) (controllers : List Controller) :
    plansOf (controller :: controllers) =
      (controller.routes.map fun route => (controller.plan route).1) ++ plansOf controllers :=
  rfl

theorem permitted_cons_of_permits {controller : Controller}
    (permits : router.Permits controller.controllerClass) (controllers : List Controller) :
    router.permitted (controller :: controllers) = controller :: router.permitted controllers :=
  List.filter_cons_of_pos (decide_eq_true permits)

theorem permitted_cons_of_not_permits {controller : Controller}
    (refused : ¬router.Permits controller.controllerClass) (controllers : List Controller) :
    router.permitted (controller :: controllers) = router.permitted controllers :=
  List.filter_cons_of_neg fun permits => refused (of_decide_eq_true permits)

theorem permitted_congr {other : HttpRouter}
    (same : other.restrictedControllers = router.restrictedControllers)
    (controllers : List Controller) : other.permitted controllers = router.permitted controllers :=
  List.filter_congr fun controller _ => decide_eq_decide.mpr (by simp only [Permits, same])

theorem Sound.addPlans (sound : router.Sound) (controller : Controller)
    {routes : List RouteMetadata}
    (distinct : (router.routes ++ routes.map fun route => (controller.plan route).1).Pairwise
      DifferentKeys) :
    ∃ after : HttpRouter, (routes.map controller.plan).foldlM addPlan router = .ok after ∧
      after.Sound ∧
        after.routes = router.routes ++ (routes.map fun route => (controller.plan route).1) ∧
          after.restrictedControllers = router.restrictedControllers := by
  induction routes generalizing router with
  | nil => exact ⟨router, rfl, sound, by simp, rfl⟩
  | cons route routes ih =>
      have fresh : ¬∃ existing ∈ router.routes, existing.key = (controller.plan route).1.key := by
        rintro ⟨existing, member, same⟩
        exact (List.pairwise_append.mp distinct).2.2 existing member _ List.mem_cons_self same
      rw [← sound.addRoute_error_iff, ← addPlan_plan] at fresh
      cases added : router.addPlan (controller.plan route) with
      | error message => exact absurd ⟨message, added⟩ fresh
      | ok next =>
          have isAdded := added
          rw [addPlan_plan] at isAdded
          rcases sound.addRoute (controller.isCompiled_plan route) isAdded with
            ⟨nextSound, nextRoutes, sameRestriction⟩
          have shift : router.routes ++ ((route :: routes).map fun route =>
              (controller.plan route).1) = next.routes ++ (routes.map fun route =>
                (controller.plan route).1) := by
            rw [nextRoutes]
            simp
          rw [shift] at distinct ⊢
          rcases ih nextSound distinct with ⟨after, finished, isSound, isRoutes, restricted⟩
          refine ⟨after, ?_, isSound, isRoutes, restricted.trans sameRestriction⟩
          rw [List.map_cons, List.foldlM_cons, added]
          exact finished

theorem Sound.registerControllers (sound : router.Sound) {controllers : List Controller}
    (distinct : (router.routes ++ plansOf (router.permitted controllers)).Pairwise
      DifferentKeys) :
    ∃ after : HttpRouter, controllers.foldlM registerController router = .ok after ∧
      after.Sound ∧ after.routes = router.routes ++ plansOf (router.permitted controllers) ∧
        after.restrictedControllers = router.restrictedControllers := by
  induction controllers generalizing router with
  | nil => exact ⟨router, rfl, sound, by simp [permitted, plansOf], rfl⟩
  | cons controller controllers ih =>
      by_cases permits : router.Permits controller.controllerClass
      · rw [permitted_cons_of_permits permits, plansOf_cons, ← List.append_assoc] at distinct ⊢
        rcases sound.addPlans controller (List.pairwise_append.mp distinct).1 with
          ⟨next, added, nextSound, nextRoutes, sameRestriction⟩
        rw [← nextRoutes, ← permitted_congr sameRestriction] at distinct ⊢
        rcases ih nextSound distinct with ⟨after, finished, isSound, isRoutes, restricted⟩
        refine ⟨after, ?_, isSound, isRoutes, restricted.trans sameRestriction⟩
        rw [List.foldlM_cons, registerController, if_pos permits, added]
        exact finished
      · rw [permitted_cons_of_not_permits permits] at distinct ⊢
        rcases ih sound distinct with ⟨after, finished, rest⟩
        refine ⟨after, ?_, rest⟩
        rw [List.foldlM_cons, registerController, if_neg permits]
        exact finished

theorem permitted_of_unrestricted (unrestricted : router.restrictedControllers = none)
    (controllers : List Controller) : router.permitted controllers = controllers :=
  List.filter_eq_self.mpr fun controller _ => by simp [Permits, unrestricted]

theorem permitted_of_restricted {classes : List ControllerClass}
    (restricted : router.restrictedControllers = some classes) (controllers : List Controller) :
    router.permitted controllers =
      controllers.filter fun controller => controller.controllerClass ∈ classes :=
  List.filter_congr fun controller _ => by simp [Permits, restricted]

theorem plansOf_append (first second : List Controller) :
    plansOf (first ++ second) = plansOf first ++ plansOf second :=
  List.flatMap_append

theorem plansOf_filter (classes : List ControllerClass) (controllers : List Controller) :
    plansOf (controllers.filter fun controller => controller.controllerClass ∈ classes) =
      (plansOf controllers).filter fun route => route.controllerClass ∈ classes := by
  induction controllers with
  | nil => rfl
  | cons controller controllers ih =>
      have sameClass : ∀ route ∈ controller.routes.map fun route => (controller.plan route).1,
          route.controllerClass = controller.controllerClass := by
        intro route member
        rcases List.mem_map.mp member with ⟨metadata, -, rfl⟩
        rfl
      rw [plansOf_cons, List.filter_append, ← ih]
      by_cases kept : controller.controllerClass ∈ classes
      · rw [List.filter_cons_of_pos (by simpa using kept), plansOf_cons]
        congr 1
        refine (List.filter_eq_self.mpr fun route member => ?_).symm
        rw [sameClass route member]
        simpa using kept
      · rw [List.filter_cons_of_neg (by simpa using kept)]
        have dropped : (controller.routes.map fun route => (controller.plan route).1).filter
            (fun route => route.controllerClass ∈ classes) = [] := by
          refine List.filter_eq_nil_iff.mpr fun route member => ?_
          rw [sameClass route member]
          simpa using kept
        rw [dropped, List.nil_append]

theorem exists_registerAround {controllers before after : List Controller}
    {restriction : Option (List ControllerClass)}
    (distinct : (plansOf controllers).Pairwise DifferentKeys)
    (perm : (before ++ after).Perm controllers) :
    ∃ router : HttpRouter, registerAround before restriction after = .ok router ∧ router.Sound ∧
      ∀ route, route ∈ router.routes ↔ route ∈ plansOf controllers ∧
        ∀ classes, restriction = some classes → route.controllerClass ∈ classes := by
  have symmetric : ∀ {first second}, DifferentKeys first second → DifferentKeys second first :=
    fun differ => Ne.symm differ
  have permPlans : (plansOf before ++ plansOf after).Perm (plansOf controllers) := by
    rw [← plansOf_append]
    exact perm.flatMap_right _
  have apart := (permPlans.pairwise_iff symmetric).mpr distinct
  have members : ∀ route, route ∈ plansOf before ∨ route ∈ plansOf after ↔
      route ∈ plansOf controllers := fun route => by
    rw [← List.mem_append]
    exact permPlans.mem_iff
  have unrestricted : HttpRouter.empty.restrictedControllers = none := rfl
  have startApart : (HttpRouter.empty.routes ++
      plansOf (HttpRouter.empty.permitted before)).Pairwise DifferentKeys := by
    rw [permitted_of_unrestricted unrestricted]
    exact (List.pairwise_append.mp apart).1
  rcases Sound.empty.registerControllers startApart with
    ⟨registered, isRegistered, registeredSound, registeredRoutes, noRestriction⟩
  rw [permitted_of_unrestricted unrestricted] at registeredRoutes
  have onlyBefore : registered.routes = plansOf before := registeredRoutes
  unfold registerAround
  rw [isRegistered]
  cases restriction with
  | none =>
      have restApart : (registered.routes ++ plansOf (registered.permitted after)).Pairwise
          DifferentKeys := by
        rw [permitted_of_unrestricted noRestriction, onlyBefore]
        exact apart
      rcases registeredSound.registerControllers restApart with
        ⟨finished, isFinished, isSound, isRoutes, -⟩
      refine ⟨finished, isFinished, isSound, fun route => ?_⟩
      rw [isRoutes, permitted_of_unrestricted noRestriction, onlyBefore, List.mem_append, members]
      simp
  | some classes =>
      rcases registeredSound.restrictControllers classes with
        ⟨restricted, isRestricted, restrictedSound, restrictedRoutes, restriction⟩
      rw [onlyBefore] at restrictedRoutes
      have kept : restricted.routes ++ plansOf (restricted.permitted after) =
          (plansOf before ++ plansOf after).filter fun route =>
            route.controllerClass ∈ classes := by
        rw [permitted_of_restricted restriction, plansOf_filter, restrictedRoutes,
          List.filter_append]
      have restApart : (restricted.routes ++ plansOf (restricted.permitted after)).Pairwise
          DifferentKeys := by
        rw [kept]
        exact apart.filter _
      rcases restrictedSound.registerControllers restApart with
        ⟨finished, isFinished, isSound, isRoutes, -⟩
      refine ⟨finished, ?_, isSound, fun route => ?_⟩
      · simp only [isRestricted, bind, Except.bind]
        exact isFinished
      · rw [isRoutes, kept, List.mem_filter, List.mem_append, members]
        simp

end Registration

/-- The selection of a router, and which routes it takes. -/
structure SelectsMostSpecific (router : HttpRouter) : Prop where
  /-- A route is selected exactly when some route matches. -/
  isSome_iff : ∀ method path, (router.select method path).isSome ↔
    ∃ route ∈ router.routes, route.method.text = method ∧ route.Matches path
  /-- The selected route matches, and has a literal at the first position where its segments and
  those of another matching route differ in kind. -/
  goesFirst : ∀ method path route groups, router.select method path = some (route, groups) →
    (route ∈ router.routes ∧ route.method.text = method ∧
      matchRoutePath route.regex path = some groups) ∧
      ∀ another ∈ router.routes, another.method.text = method → another.Matches path →
        another ≠ route → GoesFirst route.segments another.segments
  /-- A route is refused exactly when one of its method matches the same paths. -/
  refuses_iff : ∀ (controller : Controller) (route : RouteMetadata),
    (∃ message, router.addPlan (controller.plan route) = .error message) ↔
      ∃ existing ∈ router.routes, existing.method = (controller.plan route).1.method ∧
        ∀ path, existing.Matches path ↔ (controller.plan route).1.Matches path

/-- Every router selects the most specific route, and the selection depends neither on the order
of registration nor on when the router was restricted. -/
theorem dispatch_orderIndependent :
    (∀ router, routerSystem.Reachable router → router.SelectsMostSpecific) ∧
    (∀ router other, routerSystem.Reachable router → routerSystem.Reachable other →
      (∀ route, route ∈ router.routes ↔ route ∈ other.routes) →
        ∀ decodeURIComponent method path, router.matchRequest decodeURIComponent method path =
          other.matchRequest decodeURIComponent method path) ∧
    ∀ controllers restriction, (plansOf controllers).Pairwise DifferentKeys →
      ∃ router : HttpRouter,
        (∀ route, route ∈ router.routes ↔ route ∈ plansOf controllers ∧
          ∀ classes, restriction = some classes → route.controllerClass ∈ classes) ∧
        router.SelectsMostSpecific ∧
        ∀ before after, (before ++ after).Perm controllers →
          ∃ registered, registerAround before restriction after = .ok registered ∧
            ∀ decodeURIComponent method path,
              registered.matchRequest decodeURIComponent method path =
                router.matchRequest decodeURIComponent method path := by
  have selects : ∀ router : HttpRouter, router.Sound → router.SelectsMostSpecific :=
    fun router sound => ⟨sound.select_isSome_iff, fun _ _ _ _ => sound.goesFirst_of_select,
      sound.addPlan_error_iff⟩
  refine ⟨fun router reachable => selects router (sound_of_reachable reachable), ?_, ?_⟩
  · intro router other reachable otherReachable sameRoutes
    exact (sound_of_reachable reachable).matchRequest_congr (sound_of_reachable otherReachable)
      sameRoutes
  · intro controllers restriction distinct
    have whole : (controllers ++ []).Perm controllers := by rw [List.append_nil]
    rcases @exists_registerAround _ _ _ restriction distinct whole with
      ⟨router, -, sound, isRoutes⟩
    refine ⟨router, isRoutes, selects router sound, fun before after perm => ?_⟩
    rcases @exists_registerAround _ _ _ restriction distinct perm with
      ⟨registered, isRegistered, registeredSound, registeredRoutes⟩
    refine ⟨registered, isRegistered, registeredSound.matchRequest_congr sound fun route => ?_⟩
    rw [registeredRoutes, isRoutes]

/-- `/users/:id` and `/users/me`, in both orders and with a restriction in between. -/
theorem dispatch_orderIndependent_users :
    ∃ first second,
      registerAround
          [⟨⟨0, "UserController"⟩, "users", [⟨.get, ":id", "show"⟩]⟩,
            ⟨⟨1, "MeController"⟩, "users/me", [⟨.get, "", "show"⟩]⟩] (some [⟨0, "UserController"⟩])
          [] = .ok first ∧
        registerAround [⟨⟨1, "MeController"⟩, "users/me", [⟨.get, "", "show"⟩]⟩]
          (some [⟨0, "UserController"⟩])
          [⟨⟨0, "UserController"⟩, "users", [⟨.get, ":id", "show"⟩]⟩] = .ok second ∧
        ∀ decodeURIComponent method path, first.matchRequest decodeURIComponent method path =
          second.matchRequest decodeURIComponent method path := by
  have distinct : (plansOf
      [⟨⟨0, "UserController"⟩, "users", [⟨.get, ":id", "show"⟩]⟩,
        ⟨⟨1, "MeController"⟩, "users/me", [⟨.get, "", "show"⟩]⟩]).Pairwise DifferentKeys := by
    refine List.pairwise_pair.mpr ?_
    unfold DifferentKeys
    decide +kernel
  rcases dispatch_orderIndependent.2.2 _ (some [⟨0, "UserController"⟩]) distinct with
    ⟨router, -, -, runs⟩
  rcases runs _ [] (by rw [List.append_nil]) with ⟨first, isFirst, firstMatches⟩
  rcases runs [⟨⟨1, "MeController"⟩, "users/me", [⟨.get, "", "show"⟩]⟩]
      [⟨⟨0, "UserController"⟩, "users", [⟨.get, ":id", "show"⟩]⟩] (.swap _ _ _) with
    ⟨second, isSecond, secondMatches⟩
  refine ⟨first, second, isFirst, isSecond, fun decodeURIComponent method path => ?_⟩
  exact (firstMatches decodeURIComponent method path).trans
    (secondMatches decodeURIComponent method path).symm

end HttpRouter

end ServerFoundation.Http
