import SalesTrades.Deals.ReferenceSync
import SalesTrades.Library.Paging

/-!
# Pagination

The generators of the Freshsales client that go through an answer page by page, and `_bucket_map` of the
contact-activity sync. They stop at an empty page, when the running count reaches `meta.total`, or when
`meta.has_next` is false. Over an API that cuts a list into pages each of them goes through the whole
list once and in order (`pagination_complete`).
-/

set_option autoImplicit false

namespace SalesTrades.Freshsales

open SalesTrades.Library.Paging SalesTrades.Deals

universe u

variable {α : Type u}

/-! ## The loops -/

/-- The items of an answer under `key`: none where `if not items` breaks the loop. -/
def pageItems (key : String) (body : Json) : Except PyError (List Json) := do
  let items ← getOr body key (.arr [])
  if items.truthy then iterate items else return []

/-- One page of `paginate_view`. -/
def viewTurn (get : ℕ → Except PyError Json) (page : ℕ) : List Json × After PyError ℕ :=
  match get page >>= pageItems "deals" with
  | .error e => ([], .raised e)
  | .ok [] => ([], .done)
  | .ok (deal :: deals) => (deal :: deals, .goOn (page + 1))

def paginateView (get : ℕ → Except PyError Json) : ℕ → Option (Walk PyError Json) :=
  walk (viewTurn get) 1

/-- `body.get("meta", {}).get(key)`. -/
def metaField (body : Json) (key : String) : Except PyError Json := do
  (← getOr body "meta" (.obj [])).get key

/-- `total is not None and seen >= total`. -/
def reachedTotal (seen : ℕ) : Json → Except PyError Bool
  | .null => .ok false
  | .num total => .ok (decide (total ≤ seen))
  | .bool total => .ok (decide (total.toNat ≤ seen))
  | _ => .error .typeError

/-- The items one after another, up to the first that raises. -/
def yieldEach (f : Json → Except PyError α) : List Json → List α × Option PyError
  | [] => ([], none)
  | x :: xs =>
      match f x with
      | .error e => ([], some e)
      | .ok a => (a :: (yieldEach f xs).1, (yieldEach f xs).2)

/-- One page of a loop that keeps the page number and the count of what it has seen. -/
def countedTurn (key : String) (f : Json → Except PyError α) (request : ℕ → Except PyError Json)
    (s : ℕ × ℕ) : List α × After PyError (ℕ × ℕ) :=
  match request s.1 with
  | .error e => ([], .raised e)
  | .ok body =>
      match pageItems key body with
      | .error e => ([], .raised e)
      | .ok [] => ([], .done)
      | .ok (x :: xs) =>
          match yieldEach f (x :: xs) with
          | (ys, some e) => (ys, .raised e)
          | (ys, none) =>
              match metaField body "total" >>= reachedTotal (s.2 + (x :: xs).length) with
              | .error e => (ys, .raised e)
              | .ok true => (ys, .done)
              | .ok false => (ys, .goOn (s.1 + 1, s.2 + (x :: xs).length))

def iterPipelineDealIds (post : ℕ → Except PyError Json) : ℕ → Option (Walk PyError Json) :=
  walk (countedTurn "deals" (fun deal => item deal "id") post) (1, 0)

def iterSalesActivities (get : ℕ → Except PyError Json) : ℕ → Option (Walk PyError Json) :=
  walk (countedTurn "sales_activities" .ok get) (1, 0)

/-- One page of `paginate_timeline`, which does not look whether the page is empty. -/
def timelineTurn (get : ℕ → Except PyError Json) (page : ℕ) : List Json × After PyError ℕ :=
  match get page with
  | .error e => ([], .raised e)
  | .ok data =>
      match getOr data "timeline_feeds" (.arr []) >>= iterate with
      | .error e => ([], .raised e)
      | .ok feeds =>
          match metaField data "has_next" with
          | .error e => (feeds, .raised e)
          | .ok next => (feeds, if next.truthy then .goOn (page + 1) else .done)

def paginateTimeline (get : ℕ → Except PyError Json) : ℕ → Option (Walk PyError Json) :=
  walk (timelineTurn get) 1

/-- `int(value)`, where `ofText` reads a numeral. -/
def intOf (ofText : String → Option Int) : Json → Except PyError Int
  | .num q => .ok (q.num.tdiv q.den)
  | .bool b => .ok b.toNat
  | .str s =>
      match ofText s with
      | some n => .ok n
      | none => .error .valueError
  | _ => .error .typeError

/-- `int(r["id"])`. -/
def contactId (ofText : String → Option Int) (r : Json) : Except PyError Int := do
  intOf ofText (← item r "id")

/-- The loop of `_bucket_map` over the pages of one value: the contacts that get the value. -/
def bucketContacts (ofText : String → Option Int) (post : ℕ → Except PyError Json) :
    ℕ → Option (Walk PyError Int) :=
  walk (countedTurn "contacts" (contactId ofText) post) (1, 0)

/-- The loop of `_bucket_map` over the values. -/
def bucketLoop (ofText : String → Option Int) (post : String → ℕ → Except PyError Json) (fuel : ℕ) :
    List String → (Int → Option String) → Option (Except PyError (Int → Option String))
  | [], out => some (.ok out)
  | value :: values, out =>
      match bucketContacts ofText (post value) fuel with
      | none => none
      | some ⟨_, _, some e⟩ => some (.error e)
      | some ⟨contacts, _, none⟩ =>
          bucketLoop ofText post fuel values
            (contacts.foldl (fun out contact => Function.update out contact (some value)) out)

/-- `_bucket_map`: the value of each contact, `none` where the `dict` has no entry. -/
def bucketMap (ofText : String → Option Int) (post : String → ℕ → Except PyError Json)
    (values : List String) (fuel : ℕ) : Option (Except PyError (Int → Option String)) :=
  bucketLoop ofText post fuel values fun _ => none

/-! ## The API -/

/-- The answer to page `p` is an object with the page of the list under `key`. -/
def AnswersPages (n : ℕ) (xs : List Json) (key : String) (answer : ℕ → Except PyError Json) : Prop :=
  ∀ p, 1 ≤ p → ∃ body, answer p = .ok body ∧ getOr body key (.arr []) = .ok (.arr (page n xs p))

/-- `meta.total` is absent or the length of the list. -/
def TotalsRight (total : ℕ) (answer : ℕ → Except PyError Json) : Prop :=
  ∀ p body, 1 ≤ p → answer p = .ok body →
    metaField body "total" = .ok .null ∨ metaField body "total" = .ok (.num total)

/-- `meta.has_next` is true exactly when a later page is not empty. -/
def HasNextRight (n : ℕ) (xs : List Json) (answer : ℕ → Except PyError Json) : Prop :=
  ∀ p body, 1 ≤ p → answer p = .ok body →
    ∃ next, metaField body "has_next" = .ok next ∧ (next.truthy = true ↔ p * n < xs.length)

variable {n : ℕ} {xs : List Json} {key : String} {answer : ℕ → Except PyError Json} {body : Json}
  {p : ℕ}

/-! ## One page -/

theorem pageItems_eq (h : getOr body key (.arr []) = .ok (.arr (page n xs p))) :
    pageItems key body = .ok (page n xs p) := by
  rw [pageItems, h]
  cases page n xs p with
  | nil => rfl
  | cons x rest => rfl

theorem yieldEach_ok {f : Json → Except PyError α} {g : Json → α} {items : List Json}
    (h : ∀ x ∈ items, f x = .ok (g x)) : yieldEach f items = (items.map g, none) := by
  induction items with
  | nil => rfl
  | cons x items ih =>
      obtain ⟨hx, hitems⟩ := List.forall_mem_cons.1 h
      rw [yieldEach, hx, ih hitems]
      rfl

/-- The stopping rule of the counted loops, on an API that is right about the total. -/
theorem reachedTotal_of_right (htotals : TotalsRight xs.length answer) (hp : 1 ≤ p)
    (hbody : answer p = .ok body) (seen : ℕ) : ∃ stop, metaField body "total" >>= reachedTotal seen = .ok stop ∧
      (stop = true → xs.length ≤ seen) := by
  rcases htotals p body hp hbody with hnull | hnum
  · refine ⟨false, by rw [hnull]; rfl, ?_⟩
    intro h
    cases h
  · refine ⟨decide ((xs.length : ℚ) ≤ seen), by rw [hnum]; rfl, ?_⟩
    intro h
    exact_mod_cast of_decide_eq_true h

theorem mem_of_mem_page {x : Json} (h : x ∈ page n xs p) : x ∈ xs :=
  List.mem_of_mem_drop (List.mem_of_mem_take h)

/-! ## The loops are complete -/

theorem paginateView_complete (hn : 0 < n) (h : AnswersPages n xs "deals" answer) :
    Completes (paginateView answer) xs (pageCount n xs + 1) := by
  have hwalk := completes_of_pages (viewTurn answer) xs hn id
    (fun q => (page n xs q).isEmpty) id ?_ ?_ ?_
  · rwa [List.map_id] at hwalk
  · intro q hq
    obtain ⟨body, hbody, hitems⟩ := h q hq
    have hread : (answer q >>= pageItems "deals") = .ok (page n xs q) := by
      rw [hbody]
      exact pageItems_eq hitems
    rw [viewTurn, id, hread]
    cases page n xs q with
    | nil => rfl
    | cons x rest => simp
  · intro q hq hmore
    exact List.isEmpty_eq_false_iff.2 (page_ne_nil hn hmore)
  · intro q _ hnil
    rw [hnil]
    rfl

/-- Whether a loop that counts ends with page `q`: it is empty, or the total is reached with it. -/
def countedStops (n : ℕ) (xs : List Json) (answer : ℕ → Except PyError Json) (q : ℕ) : Bool :=
  (page n xs q).isEmpty ||
    match answer q with
    | .ok body =>
        (metaField body "total" >>= reachedTotal (seenBefore n xs (q + 1))).toOption.getD false
    | .error _ => false

/-- One page of a loop that counts, on an API that is right about the total. -/
theorem countedTurn_eq (h : AnswersPages n xs key answer) (htotals : TotalsRight xs.length answer)
    {f : Json → Except PyError α} {g : Json → α} (hf : ∀ x ∈ xs, f x = .ok (g x)) (hp : 1 ≤ p) :
    countedTurn key f answer (p, seenBefore n xs p) = ((page n xs p).map g,
      if countedStops n xs answer p then .done else .goOn (p + 1, seenBefore n xs (p + 1))) := by
  obtain ⟨body, hbody, hitems⟩ := h p hp
  obtain ⟨stop, hstop, -⟩ := reachedTotal_of_right htotals hp hbody (seenBefore n xs (p + 1))
  have hyield : yieldEach f (page n xs p) = ((page n xs p).map g, none) :=
    yieldEach_ok fun x hx => hf x (mem_of_mem_page hx)
  have hseen : seenBefore n xs p + (page n xs p).length = seenBefore n xs (p + 1) :=
    seenBefore_add_page hp
  have hstops : countedStops n xs answer p = ((page n xs p).isEmpty || stop) := by
    rw [countedStops, hbody]
    dsimp only
    rw [hstop]
    rfl
  rw [countedTurn, hstops, hbody]
  dsimp only
  rw [pageItems_eq hitems]
  cases hpage : page n xs p with
  | nil => rfl
  | cons x rest =>
      rw [hpage] at hyield hseen
      dsimp only
      rw [hyield]
      dsimp only
      rw [hseen, hstop]
      cases stop with
      | true => rfl
      | false => rfl

/-- A loop that counts goes through all the pages. -/
theorem countedLoop_complete (hn : 0 < n) (h : AnswersPages n xs key answer)
    (htotals : TotalsRight xs.length answer) {f : Json → Except PyError α} {g : Json → α}
    (hf : ∀ x ∈ xs, f x = .ok (g x)) :
    Completes (walk (countedTurn key f answer) (1, 0)) (xs.map g) (pageCount n xs + 1) := by
  have hstart : ((1, 0) : ℕ × ℕ) = (1, seenBefore n xs 1) := by simp [seenBefore]
  rw [hstart]
  apply completes_of_pages _ xs hn (fun q => (q, seenBefore n xs q)) (countedStops n xs answer) g
  · intro q hq
    exact countedTurn_eq h htotals hf hq
  · intro q hq hmore
    rw [countedStops, List.isEmpty_eq_false_iff.2 (page_ne_nil hn hmore), Bool.false_or]
    split
    · rename_i body hbody
      obtain ⟨stop, hstop, hall⟩ := reachedTotal_of_right htotals hq hbody (seenBefore n xs (q + 1))
      rw [hstop]
      show stop = false
      rw [← Bool.not_eq_true]
      intro hreached
      -- a later page has something, so not everything has been seen
      have hseen := hall hreached
      rw [length_le_seenBefore_iff] at hseen
      omega
    · rfl
  · intro q _ hnil
    rw [countedStops, hnil]
    rfl

theorem paginateTimeline_complete (hn : 0 < n) (h : AnswersPages n xs "timeline_feeds" answer)
    (hnext : HasNextRight n xs answer) :
    Completes (paginateTimeline answer) xs (pageCount n xs + 1) := by
  have hwalk := completes_of_pages (timelineTurn answer) xs hn id
    (fun q => decide (xs.length ≤ q * n)) id ?_ ?_ ?_
  · rwa [List.map_id] at hwalk
  · intro q hq
    obtain ⟨body, hbody, hitems⟩ := h q hq
    obtain ⟨next, hfield, htruthy⟩ := hnext q body hq hbody
    have hread : (getOr body "timeline_feeds" (.arr []) >>= iterate) = .ok (page n xs q) := by
      rw [hitems]
      rfl
    rw [timelineTurn, id, hbody]
    dsimp only
    rw [hread, hfield, List.map_id]
    dsimp only
    by_cases hmore : q * n < xs.length
    · rw [if_pos (htruthy.2 hmore), if_neg]
      · rfl
      · rw [decide_eq_true_eq]
        omega
    · rw [if_neg (mt htruthy.1 hmore), if_pos]
      rw [decide_eq_true_eq]
      omega
  · intro q hq hmore
    rw [decide_eq_false_iff_not]
    omega
  · intro q _ hnil
    rw [decide_eq_true_eq]
    exact not_lt.1 fun hmore => page_ne_nil hn hmore hnil

/-! ## Buckets -/

/-- The last of the values whose contacts include this one. -/
def lastBucket (contacts : String → List Int) (values : List String) (contact : Int) :
    Option String :=
  values.reverse.find? fun value => decide (contact ∈ contacts value)

theorem foldl_update_eq (value : String) (contacts : List Int) (out : Int → Option String)
    (contact : Int) :
    contacts.foldl (fun out contact => Function.update out contact (some value)) out contact =
      if contact ∈ contacts then some value else out contact := by
  induction contacts generalizing out with
  | nil => simp
  | cons c contacts ih =>
      rw [List.foldl_cons, ih]
      by_cases hrest : contact ∈ contacts
      · simp [hrest]
      · by_cases hc : contact = c
        · simp [hc]
        · simp [hrest, hc]

/-- The loop over the values, with what the values before have left. -/
theorem bucketLoop_eq {ofText : String → Option Int} {post : String → ℕ → Except PyError Json}
    (contacts : String → List Int) {fuel : ℕ} {values : List String}
    (h : ∀ value ∈ values, ∃ requests,
      bucketContacts ofText (post value) fuel = some ⟨contacts value, requests, none⟩)
    (out : Int → Option String) :
    bucketLoop ofText post fuel values out =
      some (.ok fun contact => (lastBucket contacts values contact).or (out contact)) := by
  induction values generalizing out with
  | nil => rfl
  | cons value values ih =>
      obtain ⟨⟨requests, hvalue⟩, hvalues⟩ := List.forall_mem_cons.1 h
      rw [bucketLoop, hvalue]
      dsimp only
      rw [ih hvalues]
      congr 2
      funext contact
      rw [foldl_update_eq, lastBucket, lastBucket, List.reverse_cons, List.find?_append, Option.or_assoc]
      congr 1
      by_cases hmem : contact ∈ contacts value
      · simp [hmem]
      · simp [hmem]

theorem bucketMap_complete (hn : 0 < n) {ofText : String → Option Int}
    {post : String → ℕ → Except PyError Json} {listed : String → List Json}
    {contactOf : Json → Int} {values : List String}
    (h : ∀ value ∈ values, AnswersPages n (listed value) "contacts" (post value) ∧
      TotalsRight (listed value).length (post value) ∧
      ∀ r ∈ listed value, contactId ofText r = .ok (contactOf r)) {fuel : ℕ}
    (hfuel : ∀ value ∈ values, pageCount n (listed value) + 1 ≤ fuel) :
    bucketMap ofText post values fuel =
      some (.ok (lastBucket (fun value => (listed value).map contactOf) values)) := by
  rw [bucketMap, bucketLoop_eq fun value => (listed value).map contactOf]
  · simp
  · intro value hvalue
    obtain ⟨hpages, htotals, hids⟩ := h value hvalue
    obtain ⟨requests, hle, hwalk⟩ := countedLoop_complete hn hpages htotals hids
    exact ⟨requests, hwalk fuel (hle.trans (hfuel value hvalue))⟩

/-- **Pagination.** Over an API that cuts a list into pages every loop yields each item once and in order,
and ends after at most one request past the last page that is not empty. `_bucket_map` ends with the
contacts that are listed under the values, each with the last value it is listed under. -/
theorem pagination_complete (hn : 0 < n) :
    (∀ xs answer, AnswersPages n xs "deals" answer →
      Completes (paginateView answer) xs (pageCount n xs + 1)) ∧
    (∀ xs answer idOf, AnswersPages n xs "deals" answer → TotalsRight xs.length answer →
      (∀ deal ∈ xs, item deal "id" = .ok (idOf deal)) →
      Completes (iterPipelineDealIds answer) (xs.map idOf) (pageCount n xs + 1)) ∧
    (∀ xs answer, AnswersPages n xs "sales_activities" answer → TotalsRight xs.length answer →
      Completes (iterSalesActivities answer) xs (pageCount n xs + 1)) ∧
    (∀ xs answer, AnswersPages n xs "timeline_feeds" answer → HasNextRight n xs answer →
      Completes (paginateTimeline answer) xs (pageCount n xs + 1)) ∧
    ∀ ofText post (listed : String → List Json) contactOf values,
      (∀ value ∈ values, AnswersPages n (listed value) "contacts" (post value) ∧
        TotalsRight (listed value).length (post value) ∧
        ∀ r ∈ listed value, contactId ofText r = .ok (contactOf r)) →
      ∀ fuel, (∀ value ∈ values, pageCount n (listed value) + 1 ≤ fuel) →
        bucketMap ofText post values fuel =
          some (.ok (lastBucket (fun value => (listed value).map contactOf) values)) := by
  refine ⟨?_, ?_, ?_, ?_, ?_⟩
  · intro xs answer h
    exact paginateView_complete hn h
  · intro xs answer idOf h htotals hids
    exact countedLoop_complete hn h htotals hids
  · intro xs answer h htotals
    have hwalk := countedLoop_complete hn h htotals (f := .ok) (g := id) fun _ _ => rfl
    rwa [List.map_id] at hwalk
  · intro xs answer h hnext
    exact paginateTimeline_complete hn h hnext
  · intro ofText post listed contactOf values h fuel hfuel
    exact bucketMap_complete hn h hfuel

/-! ## An API with pages -/

/-- An API that gives the page, the length of the list and whether there is more. -/
def pagesOf (n : ℕ) (xs : List Json) (key : String) (p : ℕ) : Except PyError Json :=
  .ok (.obj
    [(key, .arr (page n xs p)),
      ("meta", .obj
        [("total", .num xs.length), ("has_next", .bool (decide (p * n < xs.length)))])])

theorem answersPages_pagesOf (n : ℕ) (xs : List Json) (key : String) :
    AnswersPages n xs key (pagesOf n xs key) := by
  intro p _
  refine ⟨_, rfl, ?_⟩
  simp [getOr, Json.hasKey, Json.member]

theorem metaField_pagesOf {xs : List Json} {field : String} (hkey : key ≠ "meta")
    (hbody : pagesOf n xs key p = .ok body) : metaField body field = .ok (Json.member
      [("total", .num xs.length), ("has_next", .bool (decide (p * n < xs.length)))] field) := by
  cases hbody
  have hne : (key == "meta") = false := beq_eq_false_iff_ne.2 hkey
  simp [metaField, getOr, Json.hasKey, Json.member, Json.get, hne, bind, Except.bind]

theorem totalsRight_pagesOf (n : ℕ) (xs : List Json) (hkey : key ≠ "meta") :
    TotalsRight xs.length (pagesOf n xs key) := by
  intro p body _ hbody
  right
  exact metaField_pagesOf hkey hbody

theorem hasNextRight_pagesOf (n : ℕ) (xs : List Json) (hkey : key ≠ "meta") :
    HasNextRight n xs (pagesOf n xs key) := by
  intro p body _ hbody
  refine ⟨_, metaField_pagesOf hkey hbody, ?_⟩
  simp [Json.member, Json.truthy]

/-- Three records, which take two pages of two. -/
def threeRecords : List Json := [.obj [("id", .num 1)], .obj [("id", .num 2)], .obj [("id", .num 3)]]

/-- The contact of a record with a number for its id. -/
def recordContact (r : Json) : Int := (contactId (fun _ => none) r).toOption.getD 0

theorem contactId_threeRecords :
    ∀ r ∈ threeRecords, contactId (fun _ => none) r = .ok (recordContact r) := by
  intro r hr
  simp only [threeRecords, List.mem_cons, List.not_mem_nil, or_false] at hr
  rcases hr with rfl | rfl | rfl
  · rfl
  · rfl
  · rfl

theorem three_records_paged :
    Completes (paginateView (pagesOf 2 threeRecords "deals")) threeRecords 3 ∧
    Completes (iterPipelineDealIds (pagesOf 2 threeRecords "deals")) [.num 1, .num 2, .num 3] 3 ∧
    Completes (iterSalesActivities (pagesOf 2 threeRecords "sales_activities")) threeRecords 3 ∧
    Completes (paginateTimeline (pagesOf 2 threeRecords "timeline_feeds")) threeRecords 3 ∧
    ∃ out, bucketMap (fun _ => none) (fun _ => pagesOf 2 threeRecords "contacts")
      ["Strategic", "Standard"] 3 = some (.ok out) ∧ out 2 = some "Standard" ∧ out 4 = none := by
  obtain ⟨hview, hdeals, hactivities, htimeline, hbuckets⟩ := pagination_complete (n := 2) (by decide)
  refine ⟨hview _ _ (answersPages_pagesOf _ _ _), ?_, ?_, ?_, ?_⟩
  · apply hdeals threeRecords _ (fun deal => (item deal "id").toOption.getD .null)
      (answersPages_pagesOf _ _ _) (totalsRight_pagesOf _ _ (by decide))
    intro deal hdeal
    simp only [threeRecords, List.mem_cons, List.not_mem_nil, or_false] at hdeal
    rcases hdeal with rfl | rfl | rfl
    · rfl
    · rfl
    · rfl
  · exact hactivities _ _ (answersPages_pagesOf _ _ _) (totalsRight_pagesOf _ _ (by decide))
  · exact htimeline _ _ (answersPages_pagesOf _ _ _) (hasNextRight_pagesOf _ _ (by decide))
  · refine ⟨_, hbuckets _ _ (fun _ => threeRecords) recordContact _ ?_ 3 ?_, ?_, ?_⟩
    · intro value _
      exact ⟨answersPages_pagesOf _ _ _, totalsRight_pagesOf _ _ (by decide), contactId_threeRecords⟩
    · intro value _
      exact Nat.le_refl 3
    · decide
    · decide

end SalesTrades.Freshsales
