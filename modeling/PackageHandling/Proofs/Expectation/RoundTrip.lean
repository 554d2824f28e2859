import PackageHandling.Expectation
import PackageHandling.Proofs.Accessor.RoundTrip
import PackageHandling.Proofs.Version.Expected

/-!
# Expectations are read as they were written

An expectation that was read from a document is read from its own text as the same expectation, with
the accessors of every container in their order: the main statement is `ofText?_text`.
-/

namespace PackageHandling

open Json

namespace StartRequirement

structure Fits (r : StartRequirement) : Prop where
  sources : ∀ c ∈ r.sources, c.Fits
  version : ∀ e ∈ r.version, e.Fits

theorem Fits.default : Fits {} where
  sources c hc := by cases hc
  version e he := by cases he

variable {room : Nat}

theorem yields_ofJson : Yields (room + 5) ofJson Fits := by
  intro v r hv h
  obtain ⟨m, hm, h⟩ := record_eq_ok hv h
  obtain ⟨sources, hsources, h⟩ := bind_eq_ok.1 h
  obtain ⟨version, hversion, h⟩ := bind_eq_ok.1 h
  obtain rfl := Except.ok.inj h
  exact {
    sources := PackageContainer.yields_ofJson.asList.getD hm (fun c hc => by cases hc) hsources
    version := ExpectedVersion.yields_ofJson.option hm hversion }

theorem regular_toJson {r : StartRequirement} (hr : r.Fits) : Regular (room + 5) r.toJson := by
  have hsources : Regular (room + 4) (.arr (r.sources.map (·.toJson))) :=
    .map fun c hc => PackageContainer.regular_toJson (hr.sources c hc)
  have hversion : Regular (room + 4) (Json.ofOption ExpectedVersion.toJson r.version) :=
    .ofOption fun e he => ExpectedVersion.regular_toJson (hr.version e he)
  exact .obj (by simp [hsources, hversion])

theorem ofJson_toJson {r : StartRequirement} (hr : r.Fits) : ofJson r.toJson = .ok r := by
  rw [toJson, ofJson, record_obj _ _ (by simp) (by simp)]
  exact bind_eq_ok.2 ⟨r.sources, Members.getD_found rfl
      (asList_map fun c hc => PackageContainer.ofJson_toJson (hr.sources c hc)),
    bind_eq_ok.2 ⟨r.version, Members.option_found rfl ExpectedVersion.toJson_ne_null
      (fun e he => ExpectedVersion.ofJson_toJson (hr.version e he)), rfl⟩⟩

end StartRequirement

namespace EndRequirement

/-- The content is in its stored form, with so many nested containers at most. -/
structure Fits (room : Nat) (r : EndRequirement) : Prop where
  targets : ∀ c ∈ r.targets, c.Fits
  content : Settled room r.content
  version : ∀ e ∈ r.version, e.Fits

variable {room : Nat}

theorem Fits.default : Fits room {} where
  targets c hc := by cases hc
  content := .null
  version e he := by cases he

theorem yields_ofJson : Yields (room + 5) ofJson (Fits (room + 4)) := by
  intro v r hv h
  obtain ⟨m, hm, h⟩ := record_eq_ok hv h
  obtain ⟨targets, htargets, h⟩ := bind_eq_ok.1 h
  obtain ⟨content, hcontent, h⟩ := bind_eq_ok.1 h
  obtain ⟨version, hversion, h⟩ := bind_eq_ok.1 h
  obtain rfl := Except.ok.inj h
  exact {
    targets := PackageContainer.yields_ofJson.asList.getD hm (fun c hc => by cases hc) htargets
    content := yields_asFree.getD hm .null hcontent
    version := ExpectedVersion.yields_ofJson.option hm hversion }

theorem regular_toJson {r : EndRequirement} (hr : r.Fits (room + 4)) (hplain : Plain r.content) :
    Regular (room + 5) r.toJson := by
  have htargets : Regular (room + 4) (.arr (r.targets.map (·.toJson))) :=
    .map fun c hc => PackageContainer.regular_toJson (hr.targets c hc)
  have hversion : Regular (room + 4) (Json.ofOption ExpectedVersion.toJson r.version) :=
    .ofOption fun e he => ExpectedVersion.regular_toJson (hr.version e he)
  exact .obj (by simp [htargets, hplain.regular hr.content.nests, hversion])

theorem ofJson_toJson {r : EndRequirement} (hr : r.Fits room) : ofJson r.toJson = .ok r := by
  rw [toJson, ofJson, record_obj _ _ (by simp) (by simp)]
  exact bind_eq_ok.2 ⟨r.targets, Members.getD_found rfl
      (asList_map fun c hc => PackageContainer.ofJson_toJson (hr.targets c hc)),
    bind_eq_ok.2 ⟨r.content, Members.getD_found rfl hr.content.asFree,
    bind_eq_ok.2 ⟨r.version, Members.option_found rfl ExpectedVersion.toJson_ne_null
      (fun e he => ExpectedVersion.ofJson_toJson (hr.version e he)), rfl⟩⟩⟩

end EndRequirement

namespace WorkOptions

/-- The options that are not known are in their stored form, and none of them goes by the name of
one that is known. -/
structure Fits (room : Nat) (o : WorkOptions) : Prop where
  removeDelay : ∀ n ∈ o.removeDelay, n ≤ 0xFFFFFFFFFFFFFFFF
  extra : ∀ e ∈ o.extra.entries, Settled room e.2 ∧ e.1 ∉ ownFields

variable {room : Nat}

theorem Fits.default : Fits room {} where
  removeDelay n hn := by cases hn
  extra e he := by cases he

theorem yields_ofJson : Yields (room + 1) ofJson (Fits room) := by
  intro v o hv h
  rw [ofJson.eq_def] at h
  split at h
  · next found =>
    cases hv with
    | obj hmembers =>
      obtain ⟨m, hm, h⟩ := bind_eq_ok.1 h
      obtain ⟨removeDelay, hdelay, h⟩ := bind_eq_ok.1 h
      obtain ⟨temporary, -, h⟩ := bind_eq_ok.1 h
      obtain ⟨extra, hextra, h⟩ := bind_eq_ok.1 h
      obtain rfl := Except.ok.inj h
      refine ⟨yields_asNat64.option (Members.ofObject_within hmembers hm) hdelay, fun e he => ?_⟩
      obtain ⟨hstored, m', hm', hkey⟩ := yields_asFree.members
        (fun e he => hmembers e (List.mem_filter.1 he).1) hextra e (Sorted.mem_of_mem_ofList he)
      exact ⟨hstored, hkey ▸ of_decide_eq_true (List.mem_filter.1 hm').2⟩
  · cases h

theorem regular_toJson {o : WorkOptions} (ho : o.Fits room)
    (hplain : ∀ e ∈ o.extra.entries, Plain e.2) : Regular (room + 1) o.toJson := by
  have hdelay : Regular room (Json.ofOption .nat o.removeDelay) :=
    .ofOption fun n hn => .nat (ho.removeDelay n hn)
  exact .obj (List.forall_mem_append.2 ⟨by simp [hdelay], fun e he =>
    (hplain e he).regular (ho.extra e he).1.nests⟩)

theorem ofJson_toJson {o : WorkOptions} (ho : o.Fits room) : ofJson o.toJson = .ok o := by
  obtain ⟨own, howns⟩ : ∃ own, own = [("removeDelay", Json.ofOption .nat o.removeDelay),
    ("useTemporaryFilePath", Json.bool o.useTemporaryFilePath)] := ⟨_, rfl⟩
  have hown : ∀ m ∈ own, m.1 ∈ ownFields := by simp [howns, ownFields]
  have hothers : ∀ m ∈ o.extra.entries, m.1 ∉ ownFields := fun m hm => (ho.extra m hm).2
  have hdistinct : ((own ++ o.extra.entries).map (·.1)).Nodup := by
    rw [List.map_append, List.nodup_append]
    refine ⟨by simp [howns], o.extra.increasing.nodup, fun k hk k' hk' heq => ?_⟩
    obtain ⟨m, hm, rfl⟩ := List.mem_map.1 hk
    obtain ⟨m', hm', rfl⟩ := List.mem_map.1 hk'
    exact hothers m' hm' (heq ▸ hown m hm)
  have hextra : o.extra.entries.mapM (fun e => do return (e.1, ← e.2.asFree)) =
      (.ok o.extra.entries : Decoded _) :=
    mapM_self fun e he => bind_eq_ok.2 ⟨e.2, (ho.extra e he).1.asFree, rfl⟩
  rw [toJson, ← howns]
  refine bind_eq_ok.2 ⟨_, Members.ofObject_distinct _ hdistinct, ?_⟩
  simp only [filter_known hown hothers, filter_unknown hown hothers]
  refine bind_eq_ok.2 ⟨o.removeDelay, Members.option_nat64 ho.removeDelay (by rw [howns]; rfl),
    bind_eq_ok.2 ⟨o.useTemporaryFilePath, Members.getD_found (by rw [howns]; rfl) rfl,
    bind_eq_ok.2 ⟨o.extra.entries, hextra, ?_⟩⟩⟩
  rw [Sorted.ofList_entries]
  rfl

end WorkOptions

theorem ExpectationType.ofJson_toJson (t : ExpectationType) : ofJson t.toJson = .ok t := by
  cases t <;> rfl

namespace Expectation

structure Fits (room : Nat) (e : Expectation) : Prop where
  start : e.start.Fits
  goal : e.goal.Fits room
  options : e.options.Fits room

/-- What is left to the handlers has no number but plain integers. -/
structure Plain (e : Expectation) : Prop where
  content : e.goal.content.Plain
  extra : ∀ x ∈ e.options.extra.entries, x.2.Plain

variable {room : Nat}

theorem yields_ofJson : Yields (room + 6) ofJson (Fits (room + 4)) := by
  intro v e hv h
  obtain ⟨m, hm, h⟩ := record_eq_ok hv h
  obtain ⟨id, -, h⟩ := bind_eq_ok.1 h
  obtain ⟨type, -, h⟩ := bind_eq_ok.1 h
  obtain ⟨label, -, h⟩ := bind_eq_ok.1 h
  obtain ⟨managerId, -, h⟩ := bind_eq_ok.1 h
  obtain ⟨start, hstart, h⟩ := bind_eq_ok.1 h
  obtain ⟨goal, hgoal, h⟩ := bind_eq_ok.1 h
  obtain ⟨options, hoptions, h⟩ := bind_eq_ok.1 h
  obtain rfl := Except.ok.inj h
  exact {
    start := StartRequirement.yields_ofJson.getD hm .default hstart
    goal := EndRequirement.yields_ofJson.getD hm .default hgoal
    options := WorkOptions.yields_ofJson.getD hm .default hoptions }

theorem regular_toJson {e : Expectation} (he : e.Fits (room + 4)) (hplain : e.Plain) :
    Regular (room + 6) e.toJson := by
  have hstart : Regular (room + 5) e.start.toJson := StartRequirement.regular_toJson he.start
  have hgoal : Regular (room + 5) e.goal.toJson :=
    EndRequirement.regular_toJson he.goal hplain.content
  have hoptions : Regular (room + 5) e.options.toJson :=
    WorkOptions.regular_toJson he.options hplain.extra
  exact .obj (by simp [ExpectationType.toJson, hstart, hgoal, hoptions])

theorem ofJson_toJson {e : Expectation} (he : e.Fits room) : ofJson e.toJson = .ok e := by
  rw [toJson, ofJson, record_obj _ _ (by simp) (by simp [fields])]
  exact bind_eq_ok.2 ⟨e.id, Members.get_found rfl rfl,
    bind_eq_ok.2 ⟨e.type, Members.get_found rfl (ExpectationType.ofJson_toJson e.type),
    bind_eq_ok.2 ⟨e.label, Members.getD_found rfl rfl,
    bind_eq_ok.2 ⟨e.managerId, Members.get_found rfl rfl,
    bind_eq_ok.2 ⟨e.start, Members.getD_found rfl (StartRequirement.ofJson_toJson he.start),
    bind_eq_ok.2 ⟨e.goal, Members.getD_found rfl (EndRequirement.ofJson_toJson he.goal),
    bind_eq_ok.2 ⟨e.options, Members.getD_found rfl (WorkOptions.ofJson_toJson he.options),
      rfl⟩⟩⟩⟩⟩⟩⟩

def ofText? (text : String) : Option Expectation := (read? text).bind fun v => (ofJson v).toOption

/-- An expectation that was read is read again, as it was, from the text that it is written as. -/
theorem ofText?_text {text : String} {e : Expectation} (htext : ofText? text = some e)
    (hplain : e.Plain) :
    ofText? e.toJson.text = some e ∧
      (ofText? e.toJson.text).map (·.toJson.text) = some e.toJson.text ∧
      ∀ key ∈ WorkOptions.ownFields, e.options.extra.get? key = none := by
  obtain ⟨v, hv, hmade⟩ := Option.bind_eq_some_iff.1 htext
  have hok : ofJson v = .ok e := by
    cases hread : ofJson v with
    | error r => rw [hread] at hmade; cases hmade
    | ok e' => rw [hread] at hmade; exact congrArg _ (Option.some.inj hmade)
  have hfits : e.Fits (121 + 4) := yields_ofJson (read?_nests hv) hok
  have hregular : Regular nestingLimit e.toJson := regular_toJson hfits hplain
  have hagain : ofText? e.toJson.text = some e := by
    rw [ofText?, read?_text hregular, Option.bind_some, ofJson_toJson hfits]
    rfl
  refine ⟨hagain, by rw [hagain]; rfl, fun key hkey => ?_⟩
  exact List.lookup_eq_none_iff.2 fun x hx => bne_iff_ne.2 fun heq =>
      (hfits.options.extra x hx).2 (heq ▸ hkey)

def sampleDocument : Json :=
  .arr [.str "copy", .str "FILE_COPY", .str "", .str "m",
    .arr [.arr [.arr [.str "s", .str "S", .obj [("b", .obj [("type", .int 2)]),
      ("a", .obj [("type", .int 5)]), ("b", .obj [("type", .int 3)])]]]],
    .arr [.arr [], .arr [.int (-1)]],
    .obj [("z", .str "\n"), ("removeDelay", .int 5), ("n", .null)]]

def sample : Expectation where
  id := "copy"
  type := .fileCopy
  managerId := "m"
  start := {
    sources := [⟨"s", "S", Ordered.ofList [("b", { connection := .httpProxy none none none }),
      ("a", { connection := .corePackageInfo })]⟩] }
  goal := { content := .arr [.int (-1)] }
  options := { removeDelay := some 5, extra := Sorted.ofList [("n", .null), ("z", .str "\n")] }

theorem ofText?_text_of_sample :
    ofText? sampleDocument.text = some sample ∧ sample.Plain ∧
      sampleDocument.text ≠ sample.toJson.text ∧ ofText? sample.toJson.text = some sample := by
  have hregular : Regular nestingLimit sampleDocument := by
    simp [sampleDocument, nestingLimit, regular_arr, regular_obj, regular_int]
  have htext : ofText? sampleDocument.text = some sample := by
    rw [ofText?, read?_text hregular]
    rfl
  have hplain : sample.Plain := {
    content := .arr (List.forall_mem_singleton.2 (.int (by decide) (by decide)))
    extra := List.forall_mem_cons.2 ⟨.null, List.forall_mem_singleton.2 (.str "\n")⟩ }
  exact ⟨htext, hplain, by decide +kernel, (ofText?_text htext hplain).1⟩

end Expectation
end PackageHandling
