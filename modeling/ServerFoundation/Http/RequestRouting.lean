import ServerFoundation.Http.RouteDispatch
import ServerFoundation.Http.StaticFiles

/-!
# Routing of requests

Registering a route changes only the requests that it takes over. Static files are looked up for
requests that no route matches, so that no file shadows a route.
-/

namespace ServerFoundation.Http

namespace HttpRouter

variable {router after : HttpRouter} {method path : String} {route : HttpRoutePlan}

theorem matches_of_found {groups : List (List Char)}
    (found : matchRoutePath route.regex path = some groups) : route.Matches path := by
  rw [HttpRoutePlan.Matches, found]
  rfl

theorem Sound.select_of_first (sound : router.Sound) (member : route ∈ router.routes)
    (isMethod : route.method.text = method) (isMatch : route.Matches path)
    (first : ∀ another ∈ router.routes, another.method.text = method → another.Matches path →
      another ≠ route → GoesFirst route.segments another.segments) :
    router.select method path =
      (matchRoutePath route.regex path).map fun groups => (route, groups) := by
  have isSome := (sound.select_isSome_iff method path).mpr ⟨route, member, isMethod, isMatch⟩
  rcases Option.isSome_iff_exists.mp isSome with ⟨⟨selected, groups⟩, isSelected⟩
  rcases sound.goesFirst_of_select isSelected with ⟨⟨isRoute, sameMethod, found⟩, selectedFirst⟩
  have same : selected = route := by
    by_contra differs
    have goesFirst := first selected isRoute sameMethod (matches_of_found found) differs
    exact goesFirst.asymm (selectedFirst route member isMethod isMatch (Ne.symm differs))
  rw [isSelected, ← same, found]
  rfl

/-- A new route takes over requests that it matches, each from a route that it goes before, and all
other requests are routed as they were. -/
theorem addPlan_takes_over (reachable : routerSystem.Reachable router) {controller : Controller}
    {route : RouteMetadata} (added : router.addPlan (controller.plan route) = .ok after)
    (method path : String) :
    after.select method path = router.select method path ∨
      ((controller.plan route).1.method.text = method ∧ (controller.plan route).1.Matches path ∧
        after.select method path = (matchRoutePath (controller.plan route).1.regex path).map
          (fun groups => ((controller.plan route).1, groups)) ∧
        ∀ previous groups, router.select method path = some (previous, groups) →
          GoesFirst (controller.plan route).1.segments previous.segments) := by
  have sound := sound_of_reachable reachable
  rw [addPlan_plan] at added
  rcases sound.addRoute (controller.isCompiled_plan route) added with ⟨afterSound, isRoutes, -⟩
  generalize (controller.plan route).1 = plan at isRoutes
  have isRoute (other : HttpRoutePlan) :
      other ∈ after.routes ↔ other ∈ router.routes ∨ other = plan := by
    rw [isRoutes, List.mem_append, List.mem_singleton]
  have known {previous : HttpRoutePlan} (member : previous ∈ router.routes) : plan ≠ previous := by
    have distinct := afterSound.distinct
    rw [isRoutes, List.pairwise_append] at distinct
    intro same
    exact distinct.2.2 previous member plan (List.mem_singleton_self plan) (same ▸ rfl)
  cases selected : after.select method path with
  | none =>
      left
      cases previous : router.select method path with
      | none => rfl
      | some found =>
          rcases found with ⟨old, groups⟩
          rcases (sound.goesFirst_of_select previous).1 with ⟨member, isMethod, isMatch⟩
          have isSome := (afterSound.select_isSome_iff method path).mpr
            ⟨old, (isRoute old).mpr (.inl member), isMethod, matches_of_found isMatch⟩
          rw [selected] at isSome
          cases isSome
  | some found =>
      rcases found with ⟨chosen, groups⟩
      rcases afterSound.goesFirst_of_select selected with ⟨⟨member, isMethod, isMatch⟩, first⟩
      have chosenMatches := matches_of_found isMatch
      rcases (isRoute chosen).mp member with old | rfl
      · have again := sound.select_of_first old isMethod chosenMatches
          fun another isOld => first another ((isRoute another).mpr (.inl isOld))
        rw [again, isMatch]
        exact .inl rfl
      · refine .inr ⟨isMethod, chosenMatches, by rw [isMatch]; rfl, fun previous _ isPrevious => ?_⟩
        rcases (sound.goesFirst_of_select isPrevious).1 with ⟨isOld, sameMethod, oldMatch⟩
        exact first previous ((isRoute previous).mpr (.inl isOld)) sameMethod
          (matches_of_found oldMatch) (known isOld).symm

/-- A controller of users. -/
def userController : Controller := ⟨⟨0, "UserController"⟩, "users", [⟨.get, ":id", "show"⟩]⟩

/-- A controller of the own user. -/
def meController : Controller := ⟨⟨1, "MeController"⟩, "users/me", [⟨.get, "", "show"⟩]⟩

/-- The router that `userController` is registered with. -/
def userRouter : HttpRouter := (empty.registerController userController).toOption.getD empty

theorem userRouter_taken :
    routerSystem.Step empty (.addRoute userController ⟨.get, ":id", "show"⟩) userRouter :=
  ⟨by decide +kernel, rfl⟩

/-- `/users/me` takes one request over from `/users/:id` and leaves it the others. -/
theorem addPlan_takes_over_me :
    ∃ after, userRouter.addPlan (meController.plan ⟨.get, "", "show"⟩) = .ok after ∧
      userRouter.select "GET" "/users/me" =
        some ((userController.plan ⟨.get, ":id", "show"⟩).1, ["me".toList]) ∧
      after.select "GET" "/users/me" = some ((meController.plan ⟨.get, "", "show"⟩).1, []) ∧
      GoesFirst (meController.plan ⟨.get, "", "show"⟩).1.segments
        (userController.plan ⟨.get, ":id", "show"⟩).1.segments ∧
      after.select "GET" "/users/7" = userRouter.select "GET" "/users/7" := by
  refine ⟨_, rfl, by decide +kernel, by decide +kernel, ?_, ?_⟩
  · rcases addPlan_takes_over (.step (.start rfl) userRouter_taken)
      (rfl : userRouter.addPlan (meController.plan ⟨.get, "", "show"⟩) = _) "GET" "/users/me" with
      same | ⟨-, -, -, first⟩
    · exact absurd same (by decide +kernel)
    · exact first _ ["me".toList] (by decide +kernel)
  · rcases addPlan_takes_over (.step (.start rfl) userRouter_taken)
      (rfl : userRouter.addPlan (meController.plan ⟨.get, "", "show"⟩) = _) "GET" "/users/7" with
      same | ⟨-, isMatch, -⟩
    · exact same
    · exact absurd isMatch (by unfold HttpRoutePlan.Matches; decide +kernel)

/-- `hasRoute`, which does not look for the most specific route. -/
def hasRoute (router : HttpRouter) (method path : String) : Bool :=
  (router.dispatch method).any fun entry => (matchRoutePath entry.route.regex path).isSome

theorem hasRoute_eq : router.hasRoute method path = (router.select method path).isSome := by
  rw [Bool.eq_iff_iff, hasRoute, select, List.any_eq_true, List.findSome?_isSome_iff]
  simp only [Option.isSome_map]

theorem decodeParams_ne_notFound (decode : String → Option String) (names : List String)
    (groups : List (List Char)) (pathParams : OrderedMap String String) :
    decodeParams decode route names groups pathParams ≠ .notFound := by
  induction names generalizing groups pathParams with
  | nil => simp [decodeParams]
  | cons name names ih =>
      rw [decodeParams]
      split
      · simp
      · exact ih _ _

end HttpRouter

/-- What answers a request. -/
inductive RequestOutcome where
  | preflight
  | static (outcome : StaticOutcome)
  | routed (outcome : MatchOutcome)

/-- An answer, and the files that were touched. -/
structure RequestAnswer where
  outcome : RequestOutcome
  accessed : List AbsolutePath

/-- What `request` runs. Whether it is a CORS preflight is decided before. -/
def runRequest (cwd : AbsolutePath) (tree : FileTree) (router : HttpRouter)
    (staticFiles : Option ResolvedStaticFilesOptions) (isPreflight : Bool) (method path : String) :
    RequestAnswer :=
  let routed := RequestOutcome.routed
    (router.matchRequest (fun text => decodeURIComponent text.toList) method path)
  if isPreflight then ⟨.preflight, []⟩
  else
    match staticFiles with
    | none => ⟨routed, []⟩
    | some options =>
        if method = "GET" ∧ router.hasRoute method path = false then
          let answer := serveStaticFile cwd options tree path.toList
          match answer.outcome with
          | .routed => ⟨routed, answer.accessed⟩
          | outcome => ⟨.static outcome, answer.accessed⟩
        else ⟨routed, []⟩

/-- A request that a route matches touches no file, and what is read for another one lies in the
directory of the static files. -/
theorem runRequest_routes_first {router : HttpRouter} (reachable : routerSystem.Reachable router)
    (cwd : AbsolutePath) (tree : FileTree) (staticFiles : Option ResolvedStaticFilesOptions)
    (method path : String) :
    ((∃ route ∈ router.routes, route.method.text = method ∧ route.Matches path) →
      ∃ outcome, outcome ≠ .notFound ∧
        runRequest cwd tree router staticFiles false method path = ⟨.routed outcome, []⟩) ∧
    ∀ isPreflight,
      ∀ file ∈ (runRequest cwd tree router staticFiles isPreflight method path).accessed,
        isPreflight = false ∧ method = "GET" ∧
          (∀ route ∈ router.routes, route.method.text = method → ¬route.Matches path) ∧
          ∃ options, staticFiles = some options ∧
            (cwd.resolve options.directory.toList).names <+: file.names := by
  have selects := (sound_of_reachable reachable).select_isSome_iff method path
  constructor
  · intro matched
    rcases Option.isSome_iff_exists.mp (selects.mpr matched) with ⟨⟨route, groups⟩, selected⟩
    have isRoute : router.hasRoute method path = true := by
      rw [HttpRouter.hasRoute_eq, selected]
      rfl
    refine ⟨router.matchRequest (fun text => decodeURIComponent text.toList) method path, ?_, ?_⟩
    · rw [HttpRouter.matchRequest, selected]
      exact HttpRouter.decodeParams_ne_notFound _ _ _ _
    · cases staticFiles with
      | none => rfl
      | some options => simp [runRequest, isRoute]
  · intro isPreflight file
    unfold runRequest
    cases isPreflight with
    | true => simp
    | false =>
        cases staticFiles with
        | none => simp
        | some options =>
            by_cases looked : method = "GET" ∧ router.hasRoute method path = false
            swap
            · simp [looked]
            rw [if_neg Bool.false_ne_true]
            simp only [if_pos looked]
            intro member
            refine ⟨trivial, looked.1, ?_, options, rfl, ?_⟩
            · intro route isRoute isMethod isMatch
              have found := selects.mpr ⟨route, isRoute, isMethod, isMatch⟩
              rw [← HttpRouter.hasRoute_eq, looked.2] at found
              cases found
            · apply accessed_inside cwd options tree path.toList
              split at member <;> exact member

/-- Files, one of which lies where a route is. -/
def userTree : FileTree :=
  .directory [("static".toList, .directory
    [("a.txt".toList, .file [97]), ("users".toList, .directory [("7".toList, .file [55])])])]

/-- The route answers before the file at its path, and another file is looked up. -/
theorem runRequest_routes_first_static :
    (∃ outcome, outcome ≠ .notFound ∧
        runRequest AbsolutePath.root userTree HttpRouter.userRouter
          (some ⟨"static", "index.html", none, true⟩) false "GET" "/users/7" =
            ⟨.routed outcome, []⟩) ∧
      ∃ file ∈ (runRequest AbsolutePath.root userTree HttpRouter.userRouter
          (some ⟨"static", "index.html", none, true⟩) false "GET" "/a.txt").accessed,
        ["static".toList] <+: file.names := by
  have first := runRequest_routes_first (.step (.start rfl) HttpRouter.userRouter_taken)
    AbsolutePath.root userTree (some ⟨"static", "index.html", none, true⟩) "GET"
  refine ⟨(first "/users/7").1 ⟨(HttpRouter.userController.plan ⟨.get, ":id", "show"⟩).1,
    List.mem_singleton_self _, rfl, by unfold HttpRoutePlan.Matches; decide +kernel⟩, ?_⟩
  rcases List.exists_mem_of_ne_nil (runRequest AbsolutePath.root userTree HttpRouter.userRouter
    (some ⟨"static", "index.html", none, true⟩) false "GET" "/a.txt").accessed (by
      simp only [runRequest, serveStaticFile]
      rw [decodeURIComponent_of_not_mem (by decide)]
      decide +kernel) with ⟨file, member⟩
  rcases (first "/a.txt").2 false file member with ⟨-, -, -, options, given, inside⟩
  rw [← Option.some.inj given] at inside
  exact ⟨file, member, inside⟩

end ServerFoundation.Http
