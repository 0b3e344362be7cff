import OnlineLearning.Proofs.Random.Sound
import OnlineLearning.Proofs.Synthetic.Lines

/-!
# Drawn examples

From a sound source every example can be drawn, if no bound of the recipe is too small or too great for it. Its
label names one of the classes, and its tokens are features: names without a colon, alone or with the text
of a number behind a colon, which is read again and has no colon in it. Each function that draws has one
lemma that says what it draws (`exists_drawExamples`).
-/

namespace OnlineLearning

/-! ### Tokens -/

namespace Feature

theorem isName_ofChars {cs : List Char} (hne : cs ≠ []) (hcolon : ':' ∉ cs) : IsName (CodePoints.ofChars cs) := by
  refine ⟨fun h => hne (List.map_eq_nil_iff.mp h), fun h => hcolon ?_⟩
  obtain ⟨c, hc, heq⟩ := List.mem_map.mp h
  cases heq
  exact hc

theorem ofText_value {name : String} (h : IsName name) (x : Double) :
    ofText (name ++ ":" ++ String.ofList x.text : String) = .ok ⟨.text name, x⟩ := by
  have htext : CodePoints.ofChars (name ++ ":" ++ String.ofList x.text).toList =
      CodePoints.ofChars name.toList ++ .char ':' :: CodePoints.ofChars x.text := by
    rw [String.toList_append, String.toList_append, List.append_assoc, String.toList_ofList (l := x.text)]
    exact List.map_append
  rw [htext]
  exact ofText_pair h (Number.colon_not_mem_text x) (Number.read?_text (by decide) x)

end Feature

namespace Synthetic

theorem toList_numbered (name : String) (n : Nat) : (numbered name n).toList = name.toList ++ Text.digits n := by
  rw [numbered, String.toList_append, String.toList_ofList]

theorem colon_not_mem_numbered {name : String} (h : ':' ∉ name.toList) (n : Nat) : ':' ∉ (numbered name n).toList := by
  rw [toList_numbered, List.mem_append, not_or]
  refine ⟨h, fun hdigit => ?_⟩
  cases Text.isLatinDigit_of_mem_digits n ':' hdigit

theorem isName_numbered {name : String} (h : ':' ∉ name.toList) (n : Nat) : Feature.IsName (numbered name n) := by
  refine Feature.isName_ofChars ?_ (colon_not_mem_numbered h n)
  rw [toList_numbered]
  exact List.append_ne_nil_of_right_ne_nil _ (Text.digits_ne_nil n)

theorem colon_not_mem_start {label : String} (h : ':' ∉ label.toList) : ':' ∉ (label ++ "_f").toList := by
  rw [String.toList_append, List.mem_append, not_or]
  exact ⟨h, by decide⟩

theorem getElem_labels {classes : Int} (k : Fin classes.toNat) : (labels classes)[k] = className k :=
  Vector.getElem_ofFn k.isLt

/-! ### Draws -/

/-- A recipe from which every example can be drawn by a source that draws below all bounds within the limit. -/
structure Recipe.Sound (recipe : Recipe) (limit : Int) (noise : Double) : Prop where
  classes : 0 < recipe.classes ∧ recipe.classes ≤ limit
  prototypeSize : 0 < recipe.prototypeSize ∧ recipe.prototypeSize ≤ limit
  noiseVocabulary : 0 < recipe.noiseVocabulary ∧ recipe.noiseVocabulary ≤ limit
  noise_eq : recipe.noise = .value noise

/-- A recipe that says nothing of the numbers of features and of words of noise. -/
theorem Recipe.Sound.standard {classes limit : Int} (noise : Double) (hclasses : 0 < classes ∧ classes ≤ limit)
    (hlimit : 200 ≤ limit) : Recipe.Sound { classes, noise := .value noise } limit noise where
  classes := hclasses
  prototypeSize := by
    show (0 : Int) < 8 ∧ (8 : Int) ≤ limit
    omega
  noiseVocabulary := by
    show (0 : Int) < 200 ∧ (200 : Int) ≤ limit
    omega
  noise_eq := rfl

/-- Whether an example can be learned as one of the classes: its tokens are features, and its label names one. -/
structure Example.Usable (classes : Nat) (e : Example) : Prop where
  tokens : e.IsReadable
  label : ∃ k < classes, e.label = className k

section
variable {source : Random.Source} {limit : Int} (hsource : source.Sound limit) {recipe : Recipe} {noise : Double}
  (hrecipe : recipe.Sound limit noise)
include hsource hrecipe

theorem exists_drawToken {label : String} (hlabel : ':' ∉ label.toList) (s : source.State) :
    ∃ token s', drawToken source recipe label s = .ok (token, s') ∧ ∃ f, Feature.ofText token = .ok f := by
  unfold drawToken
  rw [hrecipe.noise_eq]
  dsimp only [Given.orFault, bind, Except.bind]
  split
  · obtain ⟨hpos, hwithin⟩ := hrecipe.noiseVocabulary
    obtain ⟨word, s', hdraw⟩ := hsource.draws _ (source.fraction s).2 hpos hwithin
    rw [hdraw]
    exact ⟨numbered "noise" word, s', rfl, _, Feature.ofText_name (isName_numbered (by decide) word)⟩
  · obtain ⟨hpos, hwithin⟩ := hrecipe.prototypeSize
    obtain ⟨feature, s', hdraw⟩ := hsource.draws _ (source.fraction s).2 hpos hwithin
    rw [hdraw]
    exact ⟨_, _, rfl, _, Feature.ofText_value (isName_numbered (colon_not_mem_start hlabel) feature) _⟩

theorem exists_drawTokens {label : String} (hlabel : ':' ∉ label.toList) (count : Nat) (s : source.State) :
    ∃ tokens s', drawTokens source recipe label count s = .ok (tokens, s') ∧
      ∀ token ∈ tokens, ∃ f, Feature.ofText token = .ok f := by
  induction count generalizing s with
  | zero => exact ⟨[], s, rfl, List.forall_mem_nil _⟩
  | succ count ih =>
    obtain ⟨token, s₁, htoken, hfeature⟩ := exists_drawToken hsource hrecipe hlabel s
    obtain ⟨tokens, s₂, htokens, hfeatures⟩ := ih s₁
    refine ⟨token :: tokens, s₂, ?_, List.forall_mem_cons.mpr ⟨hfeature, hfeatures⟩⟩
    rw [drawTokens, htoken]
    show drawTokens source recipe label count s₁ >>= _ = _
    rw [htokens]
    rfl

theorem exists_drawExample (s : source.State) :
    ∃ e s', drawExample source recipe (labels recipe.classes) s = .ok (e, s') ∧ e.Usable recipe.classes.toNat := by
  obtain ⟨k, s₁, hk⟩ := hsource.draws _ s hrecipe.classes.1 hrecipe.classes.2
  have hlabel : ':' ∉ (labels recipe.classes)[k].toList := by
    rw [getElem_labels]
    exact colon_not_mem_numbered (by decide) k
  obtain ⟨tokens, s₂, htokens, hfeatures⟩ :=
    exists_drawTokens hsource hrecipe hlabel recipe.tokensPerExample.toNat s₁
  refine ⟨⟨tokens, (labels recipe.classes)[k]⟩, s₂, ?_, hfeatures, k, k.isLt, getElem_labels k⟩
  unfold drawExample
  rw [hk]
  show drawTokens source recipe (labels recipe.classes)[k] recipe.tokensPerExample.toNat s₁ >>= _ = _
  rw [htokens]
  rfl

/-- As many examples are drawn as are asked for, and each of them can be learned. -/
theorem exists_drawExamples (count : Nat) (s : source.State) :
    ∃ es, drawExamples source recipe (labels recipe.classes) count s = (es, none) ∧ es.length = count ∧
      ∀ e ∈ es, e.Usable recipe.classes.toNat := by
  induction count generalizing s with
  | zero => exact ⟨[], rfl, rfl, List.forall_mem_nil _⟩
  | succ count ih =>
    obtain ⟨e, s', he, husable⟩ := exists_drawExample hsource hrecipe s
    obtain ⟨es, hes, hlength, husables⟩ := ih s'
    refine ⟨e :: es, ?_, congrArg (· + 1) hlength, List.forall_mem_cons.mpr ⟨husable, husables⟩⟩
    rw [drawExamples, he]
    dsimp only
    rw [hes]

end

/-- The examples of a seed that is not negative: as many as are asked for, if as many classes can be drawn from. -/
theorem exists_examples {source : Random.Source} {limit : Int} (hsource : source.Sound limit) (hlimit : 200 ≤ limit)
    {count classes seed : Int} (noise : Double) (hcount : 0 ≤ count) (hclasses : 0 < classes)
    (hdraws : 0 < count → classes ≤ limit) (hseed : 0 ≤ seed) :
    ∃ es, examples { classes, noise := .value noise } count seed source = (es, none) ∧ (es.length : Int) = count ∧
      ∀ e ∈ es, e.Usable classes.toNat := by
  obtain ⟨s, hstart⟩ := hsource.starts seed hseed
  rw [examples, hstart]
  rcases Int.lt_or_eq_of_le hcount with hpos | rfl
  · obtain ⟨es, hes, hlength, husable⟩ :=
      exists_drawExamples hsource (.standard noise ⟨hclasses, hdraws hpos⟩ hlimit) count.toNat s
    exact ⟨es, hes, by omega, husable⟩
  · exact ⟨[], rfl, rfl, List.forall_mem_nil _⟩

end Synthetic

end OnlineLearning
