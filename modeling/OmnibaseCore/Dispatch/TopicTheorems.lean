import OmnibaseCore.Dispatch.Envelope
import OmnibaseCore.Python.Dict
import OmnibaseCore.Python.Return

/-!
# One class for each topic

The check at boot drops one `Model` from every declared name; the lookup tries the name of the
class without its `Model` and then the name itself. Both speak of the same class if no name begins
with `Model` twice.

* `resolvePublishedTopic_injective`: two classes that are not spelled alike have two topics.
* `sharedTopic_not_injective`: `Foo` and `ModelFoo` have one, and so have `ModelFoo` and
  `ModelModelFoo`.
-/

namespace OmnibaseCore.Dispatch

section
variable {t : TextInterpreter} {context : String} {publishedEvents : PublishedEvents}

/-! ## The loops of the check -/

theorem canonicalTopic_eq_ok_iff {m m' : List (String × String)} {e : String × String} :
    canonicalTopic t context m e = .ok m' ↔
      (∀ prior, m.lookup (shortName e.1) = some prior → prior = e.2) ∧
        m' = Dict.setItem m (shortName e.1, e.2) := by
  obtain ⟨key, topic⟩ := e
  unfold canonicalTopic
  dsimp only
  cases m.lookup (shortName key) with
  | none =>
    exact ⟨fun h => ⟨fun _ h => (by cases h), (Except.ok.inj h).symm⟩, fun h => by rw [h.2]; rfl⟩
  | some prior =>
    by_cases hsame : prior = topic
    · rw [hsame]
      simp only [ne_eq, not_true_eq_false, if_false]
      exact ⟨fun h => ⟨fun _ h => (Option.some.inj h).symm, (Except.ok.inj h).symm⟩,
        fun h => by rw [h.2]; rfl⟩
    · simp only [ne_eq, hsame, not_false_eq_true, if_true]
      exact iff_of_false (fun h => (by cases h)) fun h => hsame (h.1 prior rfl)

theorem lookup_of_foldlM_canonicalTopic {m m' : List (String × String)}
    (h : publishedEvents.foldlM (canonicalTopic t context) m = .ok m') :
    (∀ k topic, m.lookup k = some topic → m'.lookup k = some topic) ∧
      ∀ e ∈ publishedEvents, m'.lookup (shortName e.1) = some e.2 := by
  induction publishedEvents generalizing m with
  | nil =>
    rw [← Except.ok.inj h]
    exact ⟨fun _ _ h => h, fun e he => absurd he List.not_mem_nil⟩
  | cons e rest ih =>
    rw [List.foldlM_cons] at h
    obtain ⟨next, hnext, hrest⟩ := bind_eq_ok h
    obtain ⟨hprior, rfl⟩ := canonicalTopic_eq_ok_iff.mp hnext
    obtain ⟨hkept, hrest⟩ := ih hrest
    constructor
    · intro k topic hk
      apply hkept
      rw [Dict.lookup_setItem]
      split_ifs with heq
      · rw [heq] at hk
        rw [hprior topic hk]
      · exact hk
    · refine List.forall_mem_cons.mpr ⟨hkept _ _ ?_, hrest⟩
      rw [Dict.lookup_setItem, if_pos rfl]

theorem eq_of_oneClass {m : List (String × String)} {c c' topic : String}
    (h : oneClass t context m topic = .ok ()) (hc : m.lookup c = some topic)
    (hc' : m.lookup c' = some topic) : c = c' := by
  have hmem : ∀ {c : String}, m.lookup c = some topic →
      c ∈ (m.filter fun e => e.2 = topic).map Prod.fst := by
    intro c hc
    apply List.mem_map_of_mem (f := Prod.fst) (a := (c, topic))
    rw [List.mem_filter]
    exact ⟨Dict.mem_of_lookup hc, decide_eq_true rfl⟩
  have hshort : ((m.filter fun e => e.2 = topic).map Prod.fst).length ≤ 1 := by
    unfold oneClass at h
    by_contra hlong
    simp only [if_pos (not_le.mp hlong)] at h
    exact nomatch h
  generalize (m.filter fun e => e.2 = topic).map Prod.fst = classes at hmem hshort
  match classes with
  | [] => exact absurd (hmem hc) List.not_mem_nil
  | [c₀] => rw [List.mem_singleton.mp (hmem hc), List.mem_singleton.mp (hmem hc')]
  | _ :: _ :: _ => simp at hshort

/-- A map that is accepted: a class has one topic under all its names, and a topic has one
class. -/
theorem assertPublishedEventsInjective_spec
    (h : assertPublishedEventsInjective t publishedEvents context = .ok ()) :
    ∀ e ∈ publishedEvents, ∀ e' ∈ publishedEvents, shortName e.1 = shortName e'.1 ↔ e.2 = e'.2 := by
  unfold assertPublishedEventsInjective at h
  obtain ⟨m, hloop, hclasses⟩ := bind_eq_ok h
  have hlookup := (lookup_of_foldlM_canonicalTopic hloop).2
  intro e he e' he'
  constructor
  · intro hname
    have hsame := hlookup e he
    rw [hname, hlookup e' he'] at hsame
    exact (Option.some.inj hsame).symm
  · intro htopic
    have hmem : e.2 ∈ m.map Prod.snd :=
      List.mem_map.mpr ⟨(shortName e.1, e.2), Dict.mem_of_lookup (hlookup e he), rfl⟩
    apply eq_of_oneClass (forM_eq_ok_iff.mp hclasses _ hmem) (hlookup e he)
    rw [htopic]
    exact hlookup e' he'

/-! ## The lookup -/

/-- The name begins with `Model` twice. -/
def RepeatedPrefix (className : String) : Prop :=
  startsWith "Model" className = true ∧ startsWith "Model" (shortName className) = true

instance (className : String) : Decidable (RepeatedPrefix className) :=
  inferInstanceAs (Decidable (_ ∧ _))

theorem shortName_shortName {c : String} (h : ¬ RepeatedPrefix c) :
    shortName (shortName c) = shortName c := by
  have hfalse : startsWith "Model" (shortName c) = false := by
    by_contra htrue
    have htrue : startsWith "Model" (shortName c) = true := Bool.eq_true_of_not_eq_false htrue
    by_cases hc : startsWith "Model" c = true
    · exact h ⟨hc, htrue⟩
    · have hsame : shortName c = c := if_neg hc
      exact hc (hsame ▸ htrue)
  rw [shortName, if_neg (by rw [hfalse]; decide)]

/-- `topic` is declared for the class, under its name or its short name, and under all the names
that are spelled alike no other topic is. -/
structure Declares (publishedEvents : PublishedEvents) (className topic : String) : Prop where
  declared : ∃ e ∈ publishedEvents, e.2 = topic ∧ (e.1 = shortName className ∨ e.1 = className)
  unique : ∀ e ∈ publishedEvents, shortName e.1 = shortName className → e.2 = topic

theorem publishedTopic_spec {c topic : String} (h : publishedTopic publishedEvents c = some topic) :
    ∃ e ∈ publishedEvents, e.2 = topic ∧ (e.1 = shortName c ∨ e.1 = c) := by
  unfold publishedTopic at h
  cases hshort : publishedEvents.lookup (shortName c) with
  | some found =>
    rw [hshort] at h
    exact ⟨_, Dict.mem_of_lookup hshort, Option.some.inj h, Or.inl rfl⟩
  | none =>
    rw [hshort] at h
    exact ⟨_, Dict.mem_of_lookup h, rfl, Or.inr rfl⟩

theorem resolvePublishedTopic_eq_ok_iff {m : BaseModel} {messageType : Option String}
    {topic : String} :
    resolvePublishedTopic t publishedEvents m messageType = .ok topic ↔
      publishedTopic publishedEvents m.className = some topic := by
  unfold resolvePublishedTopic
  cases publishedTopic publishedEvents m.className with
  | none => exact iff_of_false (fun h => nomatch h) fun h => nomatch h
  | some found => simp

theorem exists_shortName_eq {c topic : String} (hc : ¬ RepeatedPrefix c)
    (h : publishedTopic publishedEvents c = some topic) :
    ∃ e ∈ publishedEvents, e.2 = topic ∧ shortName e.1 = shortName c := by
  rcases publishedTopic_spec h with ⟨e, he, htopic, hname | hname⟩
  · exact ⟨e, he, htopic, by rw [hname, shortName_shortName hc]⟩
  · exact ⟨e, he, htopic, by rw [hname]⟩

/-- An accepted map gives two topics to two classes that are not spelled alike, and to each the
topic that is declared for it. -/
theorem resolvePublishedTopic_injective
    (h : assertPublishedEventsInjective t publishedEvents context = .ok ())
    {m m' : BaseModel} (hm : ¬ RepeatedPrefix m.className) (hm' : ¬ RepeatedPrefix m'.className)
    {messageType messageType' : Option String} {topic topic' : String}
    (hresolve : resolvePublishedTopic t publishedEvents m messageType = .ok topic)
    (hresolve' : resolvePublishedTopic t publishedEvents m' messageType' = .ok topic') :
    (shortName m.className ≠ shortName m'.className → topic ≠ topic') ∧
      Declares publishedEvents m.className topic ∧ Declares publishedEvents m'.className topic' := by
  have hspec := assertPublishedEventsInjective_spec h
  rw [resolvePublishedTopic_eq_ok_iff] at hresolve hresolve'
  have hdeclares : ∀ {c found : String}, ¬ RepeatedPrefix c →
      publishedTopic publishedEvents c = some found → Declares publishedEvents c found := by
    intro c found hc hfound
    obtain ⟨e, he, htopic, hname⟩ := exists_shortName_eq hc hfound
    refine ⟨publishedTopic_spec hfound, fun e' he' hname' => ?_⟩
    rw [← htopic]
    exact (hspec e' he' e he).mp (hname'.trans hname.symm)
  refine ⟨fun hnames htopics => hnames ?_, hdeclares hm hresolve, hdeclares hm' hresolve'⟩
  obtain ⟨e, he, htopic, hname⟩ := exists_shortName_eq hm hresolve
  obtain ⟨e', he', htopic', hname'⟩ := exists_shortName_eq hm' hresolve'
  rw [← hname, ← hname']
  exact (hspec e he e' he').mpr (htopic.trans (htopics.trans htopic'.symm))

end

/-! ## Examples -/

def eventOf (className : String) : BaseModel := { className, json := .ok "{}" }

def twoEvents : PublishedEvents :=
  [("OrderPlaced", "onex.evt.shop.order-placed.v1"),
    ("ModelOrderShipped", "onex.evt.shop.order-shipped.v1")]

theorem resolvePublishedTopic_injective_twoEvents :
    (shortName "ModelOrderPlaced" ≠ shortName "ModelOrderShipped" →
      "onex.evt.shop.order-placed.v1" ≠ "onex.evt.shop.order-shipped.v1") ∧
      Declares twoEvents "ModelOrderPlaced" "onex.evt.shop.order-placed.v1" ∧
      Declares twoEvents "ModelOrderShipped" "onex.evt.shop.order-shipped.v1" := by
  have haccepted : assertPublishedEventsInjective asciiText twoEvents "node_shop" = .ok () := by
    decide +kernel
  have hplaced : resolvePublishedTopic asciiText twoEvents (eventOf "ModelOrderPlaced") none
      = .ok "onex.evt.shop.order-placed.v1" := by
    decide +kernel
  have hshipped : resolvePublishedTopic asciiText twoEvents (eventOf "ModelOrderShipped") none
      = .ok "onex.evt.shop.order-shipped.v1" := by
    decide +kernel
  exact resolvePublishedTopic_injective haccepted (by decide +kernel) (by decide +kernel) hplaced
    hshipped

/-- A name with and without `Model` has one topic, and `ModelModelOrder` that of `ModelOrder`. -/
theorem sharedTopic_not_injective :
    (assertPublishedEventsInjective asciiText [("Order", "orders")] "node_shop" = .ok () ∧
      resolvePublishedTopic asciiText [("Order", "orders")] (eventOf "Order") none
        = .ok "orders" ∧
      resolvePublishedTopic asciiText [("Order", "orders")] (eventOf "ModelOrder") none
        = .ok "orders") ∧
      assertPublishedEventsInjective asciiText [("ModelOrder", "orders")] "node_shop" = .ok () ∧
      resolvePublishedTopic asciiText [("ModelOrder", "orders")] (eventOf "ModelOrder") none
        = .ok "orders" ∧
      resolvePublishedTopic asciiText [("ModelOrder", "orders")] (eventOf "ModelModelOrder") none
        = .ok "orders" := by
  decide +kernel

end OmnibaseCore.Dispatch
