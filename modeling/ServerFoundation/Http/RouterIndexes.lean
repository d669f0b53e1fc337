import ServerFoundation.Data.Results
import ServerFoundation.Http.RouteOrder
import ServerFoundation.Http.Router

/-!
# The indexes of the router

The indexes of a router hold exactly its routes, and the entries for a method are sorted.
Adding a route and building the indexes again keep this; the first succeeds when no route
has the key of the new one, and the second always succeeds.
-/

namespace ServerFoundation.Http

/-- The regular expression of the route is that of its path. -/
structure HttpRoutePlan.IsCompiled (route : HttpRoutePlan) : Prop where
  regex : route.regex = (compilePath route.path).regex
  joined : IsJoined route.path

/-- The segments of a route. -/
def HttpRoutePlan.segments (route : HttpRoutePlan) : List RouteSegment :=
  (compilePath route.path).segments

/-- The pattern key of a route. -/
def HttpRoutePlan.key (route : HttpRoutePlan) : String :=
  routePatternKey route.method route.segments

/-- The entries are in the order in which requests try them. -/
def Sorted (entries : List DispatchEntry) : Prop :=
  entries.Pairwise fun first second => ¬compareRouteSpecificity second.segments first.segments < 0

section Insertion

theorem mem_insertEntry_iff {entry other : DispatchEntry} {entries : List DispatchEntry} :
    other ∈ insertEntry entry entries ↔ other = entry ∨ other ∈ entries := by
  induction entries with
  | nil => simp [insertEntry]
  | cons current entries ih =>
      unfold insertEntry
      split
      · simp
      · rw [List.mem_cons, List.mem_cons, ih]
        exact or_left_comm

theorem sorted_insertEntry (entry : DispatchEntry) {entries : List DispatchEntry}
    (sorted : Sorted entries) : Sorted (insertEntry entry entries) := by
  induction entries with
  | nil => exact List.pairwise_singleton _ _
  | cons current entries ih =>
      rcases List.pairwise_cons.mp sorted with ⟨first, rest⟩
      unfold insertEntry
      split
      · rename_i before
        refine List.pairwise_cons.mpr ⟨fun other member below => ?_, sorted⟩
        rcases List.mem_cons.mp member with rfl | inRest
        · exact compareRouteSpecificity_asymm before below
        · exact first other inRest (compareRouteSpecificity_trans below before)
      · rename_i notBefore
        refine List.pairwise_cons.mpr ⟨fun other member => ?_, ih rest⟩
        rcases mem_insertEntry_iff.mp member with rfl | inRest
        · exact notBefore
        · exact first other inRest

end Insertion

namespace HttpRouter

/-- The indexes hold the routes. -/
structure Indexed (router : HttpRouter) (routes : List HttpRoutePlan) : Prop where
  patterns : ∀ key route, router.routePatterns.get? key = some route ↔
    route ∈ routes ∧ route.key = key
  entries : ∀ method entry, entry ∈ router.dispatch method ↔
    entry.route ∈ routes ∧ entry.route.method.text = method ∧
      entry.segments = entry.route.segments
  sorted : ∀ method, Sorted (router.dispatch method)

/-- A router as the calls leave it behind. -/
structure Sound (router : HttpRouter) : Prop where
  indexed : router.Indexed router.routes
  compiled : ∀ route ∈ router.routes, route.IsCompiled
  segments : ∀ route ∈ router.routes, router.routeSegments.get? route = some route.segments
  distinct : router.routes.Pairwise fun first second => first.key ≠ second.key

variable {router : HttpRouter} {routes : List HttpRoutePlan} {route : HttpRoutePlan}

theorem dispatch_insertDispatchRoute (segments : List RouteSegment) (method : String) :
    (router.insertDispatchRoute route segments).dispatch method =
      if method = route.method.text then insertEntry ⟨route, segments⟩ (router.dispatch method)
      else router.dispatch method := by
  unfold insertDispatchRoute dispatch
  simp only [OrderedMap.get?_set]
  by_cases same : method = route.method.text
  · simp [same]
  · simp [same]

theorem Indexed.indexRoute (indexed : router.Indexed routes)
    (fresh : ∀ other ∈ routes, other.key ≠ route.key) :
    (router.indexRoute route route.segments).Indexed (routes ++ [route]) where
  patterns key other := by
    have isKey : routePatternKey route.method route.segments = route.key := rfl
    simp only [HttpRouter.indexRoute, insertDispatchRoute, OrderedMap.get?_set, isKey,
      List.mem_append, List.mem_singleton]
    by_cases same : key = route.key
    · rw [if_pos same, Option.some.injEq]
      constructor
      · rintro rfl
        exact ⟨.inr rfl, same.symm⟩
      · rintro ⟨member | rfl, isOther⟩
        · exact absurd (isOther.trans same) (fresh other member)
        · rfl
    · rw [if_neg same, indexed.patterns]
      constructor
      · rintro ⟨member, isOther⟩
        exact ⟨.inl member, isOther⟩
      · rintro ⟨member | rfl, isOther⟩
        · exact ⟨member, isOther⟩
        · exact absurd isOther.symm same
  entries method entry := by
    have sameDispatch : (router.indexRoute route route.segments).dispatch method =
        (router.insertDispatchRoute route route.segments).dispatch method := rfl
    rw [sameDispatch, dispatch_insertDispatchRoute, List.mem_append, List.mem_singleton]
    by_cases same : method = route.method.text
    · rw [if_pos same, mem_insertEntry_iff, indexed.entries]
      constructor
      · rintro (rfl | ⟨member, isMethod, isSegments⟩)
        · exact ⟨.inr rfl, same.symm, rfl⟩
        · exact ⟨.inl member, isMethod, isSegments⟩
      · rintro ⟨member | isRoute, isMethod, isSegments⟩
        · exact .inr ⟨member, isMethod, isSegments⟩
        · rcases entry with ⟨entryRoute, entrySegments⟩
          simp only at isRoute isSegments
          exact .inl (by rw [isSegments, isRoute])
    · rw [if_neg same, indexed.entries]
      constructor
      · rintro ⟨member, isMethod, isSegments⟩
        exact ⟨.inl member, isMethod, isSegments⟩
      · rintro ⟨member | isRoute, isMethod, isSegments⟩
        · exact ⟨member, isMethod, isSegments⟩
        · exact absurd (by rw [← isRoute]; exact isMethod.symm) same
  sorted method := by
    have sameDispatch : (router.indexRoute route route.segments).dispatch method =
        (router.insertDispatchRoute route route.segments).dispatch method := rfl
    rw [sameDispatch, dispatch_insertDispatchRoute]
    split
    · exact sorted_insertEntry _ (indexed.sorted method)
    · exact indexed.sorted method

theorem Indexed.empty (restricted : Option (List ControllerClass))
    (segments : OrderedMap HttpRoutePlan (List RouteSegment)) (routes : List HttpRoutePlan) :
    Indexed ⟨routes, .empty, segments, .empty, restricted⟩ [] where
  patterns key route := by simp
  entries method entry := by simp [dispatch]
  sorted method := List.Pairwise.nil

theorem Sound.empty : HttpRouter.empty.Sound where
  indexed := .empty _ _ _
  compiled _ member := absurd member List.not_mem_nil
  segments _ member := absurd member List.not_mem_nil
  distinct := List.Pairwise.nil

theorem Sound.addRoute_error_iff (sound : router.Sound) :
    (∃ message, router.addRoute route route.segments = .error message) ↔
      ∃ existing ∈ router.routes, existing.key = route.key := by
  have isKey : routePatternKey route.method route.segments = route.key := rfl
  unfold addRoute
  rw [isKey]
  cases found : router.routePatterns.get? route.key with
  | some existing =>
      rcases (sound.indexed.patterns _ _).mp found with ⟨member, same⟩
      exact iff_of_true ⟨_, rfl⟩ ⟨existing, member, same⟩
  | none =>
      refine iff_of_false (by simp) ?_
      rintro ⟨existing, member, same⟩
      rw [(sound.indexed.patterns _ _).mpr ⟨member, same⟩] at found
      cases found

theorem Sound.addRoute (sound : router.Sound) (compiled : route.IsCompiled)
    {after : HttpRouter} (added : router.addRoute route route.segments = .ok after) :
    after.Sound ∧ after.routes = router.routes ++ [route] ∧
      after.restrictedControllers = router.restrictedControllers := by
  have fresh : ∀ other ∈ router.routes, other.key ≠ route.key := fun other member same => by
    rcases sound.addRoute_error_iff.mpr ⟨other, member, same⟩ with ⟨message, refused⟩
    rw [refused] at added
    cases added
  unfold HttpRouter.addRoute at added
  split at added
  · cases added
  · cases added
    refine ⟨⟨?_, ?_, ?_, ?_⟩, rfl, rfl⟩
    · have before : Indexed { router with
          routes := router.routes ++ [route]
          routeSegments := router.routeSegments.set route route.segments } router.routes :=
        ⟨sound.indexed.patterns, sound.indexed.entries, sound.indexed.sorted⟩
      exact before.indexRoute fresh
    · exact List.forall_mem_append.mpr
        ⟨sound.compiled, List.forall_mem_singleton.mpr compiled⟩
    · intro other member
      have lookup : (router.routeSegments.set route route.segments).get? other =
          if other = route then some route.segments else router.routeSegments.get? other :=
        OrderedMap.get?_set _ _ _ _
      refine lookup.trans ?_
      by_cases same : other = route
      · rw [if_pos same, same]
      · rw [if_neg same]
        rcases List.mem_append.mp member with old | new
        · exact sound.segments other old
        · exact absurd (List.mem_singleton.mp new) same
    · refine List.pairwise_append.mpr ⟨sound.distinct, List.pairwise_singleton _ _, ?_⟩
      exact fun other member => List.forall_mem_singleton.mpr (fresh other member)

theorem Indexed.rebuild {rebuilt : HttpRouter} {done todo : List HttpRoutePlan}
    (indexed : rebuilt.Indexed done)
    (segments : ∀ route ∈ todo, rebuilt.routeSegments.get? route = some route.segments)
    (distinct : (done ++ todo).Pairwise fun first second => first.key ≠ second.key) :
    ∃ after : HttpRouter, todo.foldlM
        (fun rebuilt route =>
          match rebuilt.routeSegments.get? route with
          | none => Except.error ("Missing route segments for " ++ describeRoute route)
          | some segments => Except.ok (HttpRouter.indexRoute rebuilt route segments)) rebuilt =
        .ok after ∧
      after.Indexed (done ++ todo) ∧ after.routes = rebuilt.routes ∧
        after.routeSegments = rebuilt.routeSegments ∧
          after.restrictedControllers = rebuilt.restrictedControllers := by
  induction todo generalizing rebuilt done with
  | nil =>
      rw [List.append_nil]
      exact ⟨rebuilt, rfl, indexed, rfl, rfl, rfl⟩
  | cons route todo ih =>
      have fresh : ∀ other ∈ done, other.key ≠ route.key := fun other member =>
        (List.pairwise_append.mp distinct).2.2 other member route List.mem_cons_self
      have shift : done ++ route :: todo = done ++ [route] ++ todo := by simp
      rw [shift] at distinct ⊢
      rcases ih (indexed.indexRoute fresh)
          (fun other member => segments other (List.mem_cons_of_mem _ member)) distinct with
        ⟨after, finished, isIndexed, sameRoutes, sameSegments, sameRestriction⟩
      refine ⟨after, ?_, isIndexed, sameRoutes, sameSegments, sameRestriction⟩
      rw [List.foldlM_cons, segments route List.mem_cons_self]
      exact finished

theorem Sound.restrictControllers (sound : router.Sound) (classes : List ControllerClass) :
    ∃ after : HttpRouter, router.restrictControllers classes = .ok after ∧ after.Sound ∧
      after.routes = router.routes.filter (fun route => route.controllerClass ∈ classes) ∧
        after.restrictedControllers = some classes := by
  have kept : ∀ route ∈ router.routes.filter (fun route => route.controllerClass ∈ classes),
      route ∈ router.routes := fun route member => (List.mem_filter.mp member).1
  have distinct := sound.distinct.filter fun route => route.controllerClass ∈ classes
  have start : Indexed ⟨router.routes.filter fun route => route.controllerClass ∈ classes, .empty,
      router.routeSegments, .empty, some classes⟩ [] := .empty _ _ _
  rcases start.rebuild (fun route member => sound.segments route (kept route member))
      (by rwa [List.nil_append]) with
    ⟨after, finished, isIndexed, sameRoutes, sameSegments, sameRestriction⟩
  refine ⟨after, finished, ⟨?_, ?_, ?_, ?_⟩, sameRoutes, sameRestriction⟩
  · rw [sameRoutes]
    exact isIndexed
  · rw [sameRoutes]
    exact fun route member => sound.compiled route (kept route member)
  · rw [sameRoutes, sameSegments]
    exact fun route member => sound.segments route (kept route member)
  · rw [sameRoutes]
    exact distinct

theorem Sound.eq_of_key_eq (sound : router.Sound) {first second : HttpRoutePlan}
    (isFirst : first ∈ router.routes) (isSecond : second ∈ router.routes)
    (sameKey : first.key = second.key) : first = second := by
  have firstFound := (sound.indexed.patterns _ _).mpr ⟨isFirst, sameKey⟩
  have secondFound := (sound.indexed.patterns _ _).mpr ⟨isSecond, rfl⟩
  exact Option.some.inj (firstFound.symm.trans secondFound)

end HttpRouter

theorem Controller.isCompiled_plan (controller : Controller) (route : RouteMetadata) :
    (controller.plan route).1.IsCompiled where
  regex := rfl
  joined := isJoined_joinPaths controller.path route.path

theorem HttpRouter.addPlan_plan (router : HttpRouter) (controller : Controller)
    (route : RouteMetadata) :
    router.addPlan (controller.plan route) =
      router.addRoute (controller.plan route).1 (controller.plan route).1.segments := by
  simp only [addPlan, Controller.plan, HttpRoutePlan.segments]

theorem sound_of_reachable {router : HttpRouter} (reachable : routerSystem.Reachable router) :
    router.Sound := by
  refine reachable.invariant HttpRouter.Sound ?_ ?_
  · rintro router rfl
    exact .empty
  · rintro before call after - sound taken
    cases call with
    | addRoute controller route =>
        have added := taken.2
        rw [HttpRouter.addPlan_plan] at added
        exact (sound.addRoute (controller.isCompiled_plan route) added).1
    | restrictControllers classes =>
        rcases sound.restrictControllers classes with ⟨found, restricted, isSound, -⟩
        have same := Except.ok.inj (restricted.symm.trans taken)
        rwa [← same]

end ServerFoundation.Http
