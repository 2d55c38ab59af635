import TemplateCompiler.Proofs.BlockMatching
import TemplateCompiler.Proofs.GeneratedStatement
import TemplateCompiler.Proofs.OutputModes
import TemplateCompiler.Proofs.PassInvariants
import TemplateCompiler.Proofs.Scanning
import TemplateCompiler.Proofs.Substituting

/-!
# At signs

All directives and calls begin with at signs. The passes that come before the blocks are compiled
add none to a text: what they put in is white space, names and paths without at signs, code of
their own, and arguments that stood in the call.
-/
namespace TemplateCompiler

namespace Context

/-- No alias in the context has an at sign, and no target. -/
def AtFree (context : Context) : Prop :=
  ∀ entry ∈ context.bindings, '@' ∉ entry.2.name ∧ '@' ∉ entry.2.target

/-- Whether the bindings of a context were declared in templates, where an alias is made of name
characters. Such a declaration may have failed. -/
def FromTemplates (context : Context) : Prop :=
  ∃ declarations : List (Text × Text),
    (∀ declaration ∈ declarations, declaration.1.all Directive.isNameChar) ∧
      context.bindings = (initial.attemptAll declarations).bindings

theorem AtFree.withLevel {context : Context} (h : context.AtFree) (level : Nat) :
    AtFree { context with level := level } := h

theorem AtFree.add {context : Context} (h : context.AtFree) {name target path : Text}
    (hname : '@' ∉ name) (hpath : HandlerPath.canonical? target = some path) :
    (context.add ⟨name, path, !name.isEmpty⟩).AtFree := by
  intro entry hentry
  rw [bindings_add, List.mem_append, List.mem_singleton] at hentry
  rcases hentry with hentry | rfl
  · exact h entry hentry
  · refine ⟨hname, fun hmem => ?_⟩
    rcases HandlerPath.isWordChar_of_canonical? hpath '@' hmem with hword | hseparator
    · exact absurd hword (by decide)
    · exact absurd hseparator (by decide)

theorem AtFree.declare {context after : Context} (h : context.AtFree) {name target : Text}
    (hname : '@' ∉ name) (hafter : context.declare name target = .ok after) : after.AtFree := by
  obtain ⟨path, hpath, ⟨bound, -, -, rfl⟩ | ⟨-, -, rfl⟩⟩ := declare_cases hafter
  · exact h
  · exact h.add hname hpath

theorem FromTemplates.atFree {context : Context} (h : context.FromTemplates) : context.AtFree := by
  obtain ⟨declarations, hnames, hbindings⟩ := h
  have hdeclared : (initial.attemptAll declarations).AtFree := by
    apply attemptAll_induction
    · simp only [AtFree, initial, List.mem_singleton, forall_eq]
      decide
    · intro context declaration hdeclaration path hcontext hpath _ _
      have hname := List.all_eq_true.mp (hnames declaration hdeclaration)
      exact hcontext.add (Text.not_mem_of_all (by decide) hname) hpath
  unfold AtFree
  rw [hbindings]
  exact hdeclared

end Context

open Context Pass

/-! ## Directives -/

namespace Directive

theorem Use.not_mem_named {text name after : Text} (h : named? text = some (name, after)) :
    '@' ∉ name := by
  obtain ⟨spaced, -, h⟩ := Option.bind_eq_some_iff.mp h
  simp only at h
  split at h
  · cases h
  · obtain ⟨more, -, hfound⟩ := Option.map_eq_some_iff.mp h
    cases hfound
    exact Text.not_mem_takeWhile (by decide) _

theorem Use.not_mem_ending {text name after : Text} (h : ending? text = some (name, after)) :
    '@' ∉ name := by
  simp only [ending?] at h
  cases hnamed : named? text.trimStart with
  | some found =>
    rw [hnamed] at h
    cases h
    exact not_mem_named hnamed
  | none =>
    rw [hnamed] at h
    obtain ⟨more, -, hfound⟩ := Option.map_eq_some_iff.mp h
    cases hfound
    exact List.not_mem_nil

theorem Use.not_mem_target {text target name after : Text}
    (h : target? text = some (target, name, after)) : '@' ∉ name := by
  induction text generalizing target with
  | nil => cases h
  | cons c rest ih =>
    unfold target? at h
    split at h
    · cases h
    · split at h
      · rename_i hending
        cases h
        exact not_mem_ending hending
      · obtain ⟨⟨more, name', after'⟩, hmore, hfound⟩ := Option.map_eq_some_iff.mp h
        cases hfound
        exact ih hmore

theorem Use.not_mem_pattern {place : Place} {length : Nat} {use : Use}
    (h : pattern place = some (length, use)) : '@' ∉ use.lead ∧ '@' ∉ use.name := by
  obtain ⟨keyword, -, h⟩ := Option.bind_eq_some_iff.mp h
  obtain ⟨opened, -, h⟩ := Option.bind_eq_some_iff.mp h
  obtain ⟨⟨target, name, after⟩, htarget, hfound⟩ := Option.map_eq_some_iff.mp h
  cases hfound
  exact ⟨Text.not_mem_takeWhile (by decide) _, not_mem_target htarget⟩

theorem Namespace.not_mem_pattern {place : Place} {length : Nat} {found : Namespace}
    (h : pattern place = some (length, found)) : '@' ∉ found.name := by
  unfold pattern at h
  split at h
  · cases h
  · obtain ⟨named, -, h⟩ := Option.bind_eq_some_iff.mp h
    simp only at h
    split at h
    · cases h
    · obtain ⟨value, -, h⟩ := Option.bind_eq_some_iff.mp h
      obtain ⟨⟨target, after⟩, -, hfound⟩ := Option.map_eq_some_iff.mp h
      cases hfound
      exact Text.not_mem_takeWhile (by decide) _

theorem Content.not_mem_pattern {place : Place} {length : Nat} {found : Content}
    (h : pattern place = some (length, found)) : '@' ∉ found.lead ∧ '@' ∉ found.trail := by
  obtain ⟨keyword, -, h⟩ := Option.bind_eq_some_iff.mp h
  split at h
  · cases h
    exact ⟨Text.not_mem_takeWhile (by decide) _, Text.not_mem_takeWhile (by decide) _⟩
  · cases h

theorem gives_declare {name : Text} (hname : '@' ∉ name) (target : Text) :
    Gives AtFree (fun _ => True) (Pass.update fun context => context.declare name target) :=
  gives_update fun _ _ hcontext hafter => hcontext.declare hname hafter

theorem gives_uses (text : Text) :
    Gives AtFree (fun after => after.count '@' ≤ text.count '@') (uses text) := by
  refine gives_substitute (fun place found hfound => ?_) text
  have hplace := Matcher.match_of_leftmost hfound
  obtain ⟨hlead, hname⟩ := Use.not_mem_pattern hplace
  unfold Use.replace
  split
  · exact gives_pure (by simp)
  · refine (gives_declare hname _).bind fun _ _ => gives_pure ?_
    rintro _ ⟨⟩
    exact hlead

theorem gives_namespaces (text : Text) :
    Gives AtFree (fun after => after.count '@' ≤ text.count '@') (namespaces text) := by
  refine gives_substitute (fun place found hfound => ?_) text
  have hplace := Matcher.match_of_leftmost hfound
  refine (gives_declare (Namespace.not_mem_pattern hplace) _).bind fun _ _ => gives_pure ?_
  rintro _ ⟨⟩
  exact List.not_mem_nil

theorem gives_configBlocks (text : Text) :
    Gives AtFree (fun after => after.count '@' ≤ text.count '@') (configBlocks text) := by
  refine gives_substitute (fun place found _ => ?_) text
  have hupdate : Gives AtFree (fun _ => True) (Pass.update fun context =>
      (Config.entries found.captures.lines).map fun entries =>
        context.push (Config.statement entries)) := by
    apply gives_update
    intro context after hcontext hafter
    cases hentries : Config.entries found.captures.lines <;> rw [hentries] at hafter <;>
      cases hafter
    exact hcontext
  refine hupdate.bind fun _ _ => gives_pure ?_
  rintro _ ⟨⟩
  exact List.not_mem_nil

theorem gives_contents (text : Text) :
    Gives AtFree (fun after => after.count '@' ≤ text.count '@') (contents text) := by
  refine gives_substitute (fun place found hfound => ?_) text
  have hplace := Matcher.match_of_leftmost hfound
  obtain ⟨hlead, htrail⟩ := Content.not_mem_pattern hplace
  unfold Content.replace
  split
  · exact gives_pure (by simp)
  · refine gives_pure ?_
    rintro _ ⟨⟩
    have hcode : '@' ∉ Content.code := by decide
    simp only [List.mem_append, not_or]
    exact ⟨⟨hlead, hcode⟩, htrail⟩

end Directive

/-! ## Simple calls -/

theorem Layout.not_mem_lead {before lead : Text} {fresh : Nat}
    (h : lead? before fresh = some lead) : '@' ∉ lead := by
  have hrun := @Text.not_mem_takeWhile Unicode.isWhitespace '@' (by decide) (before.take fresh)
  unfold lead? at h
  simp only at h
  split at h
  · split at h
    · cases h
    · rename_i c lead' hreverse
      cases h
      intro hmem
      apply hrun
      rw [← List.mem_reverse, hreverse]
      exact List.mem_cons_of_mem _ hmem
  · cases h
    rwa [List.mem_reverse]

theorem Code.not_mem_singleQuoted {text : Text} (h : '@' ∉ text) : '@' ∉ singleQuoted text := by
  have hescape : '@' ∉ escape isSingleQuotedSpecial text := by
    rw [escape, List.mem_flatMap]
    rintro ⟨c, hc, hmem⟩
    split at hmem
    · rcases List.mem_cons.mp hmem with hmem | hmem
      · cases hmem
      · exact h (List.mem_singleton.mp hmem ▸ hc)
    · exact h (List.mem_singleton.mp hmem ▸ hc)
  simp only [singleQuoted, List.mem_cons, List.mem_append, not_or]
  exact ⟨⟨by decide, hescape⟩, by decide, List.not_mem_nil⟩

theorem count_between {x : Char} {opening closing : Text} (hopening : x ∉ opening)
    (hclosing : x ∉ closing) (text : Text) :
    (opening ++ text ++ closing).count x = text.count x := by
  rw [List.count_append, List.count_append, List.count_eq_zero.mpr hopening,
    List.count_eq_zero.mpr hclosing, Nat.zero_add, Nat.add_zero]

theorem Code.count_output (mode : OutputMode) {lead indent : Text} (hlead : '@' ∉ lead)
    (hindent : '@' ∉ indent) (expression : Text) :
    (output mode lead indent expression).count '@' = expression.count '@' := by
  have hquoted := not_mem_singleQuoted hindent
  rw [output_eq]
  apply count_between
  · cases mode with
    | pretty =>
      have hstart : '@' ∉ "<?php _h\\out(".toList := by decide
      exact List.not_mem_append hlead hstart
    | compact =>
      have hstart : '@' ∉ "<?php echo ".toList := by decide
      exact hstart
  · cases mode with
    | pretty =>
      have hcomma : '@' ∉ ", ".toList := by decide
      have hend : '@' ∉ ") ?> ".toList := by decide
      exact List.not_mem_append (List.not_mem_append hcomma hquoted) hend
    | compact =>
      have hend : '@' ∉ " ?> ".toList := by decide
      exact hend

theorem ResolvedCall.count_code {call : ResolvedCall} (hsymbol : '@' ∉ call.symbol)
    (hmethod : '@' ∉ call.method) (arguments : Text) :
    (call.code arguments).count '@' = arguments.count '@' := by
  have hcolons : '@' ∉ "::".toList := by decide
  have hclosing : '@' ∉ [')'] := by decide
  have hopening : '@' ∉ call.symbol ++ "::".toList ++ call.method ++ ['('] :=
    List.not_mem_append (List.not_mem_append (List.not_mem_append hsymbol hcolons) hmethod)
      (by decide)
  have hcode : call.code arguments =
      call.symbol ++ "::".toList ++ call.method ++ ['('] ++ arguments ++ [')'] := by
    rw [code, List.append_cons _ '(' arguments]
  rw [hcode]
  exact count_between hopening hclosing arguments

namespace Head

theorem isNameChar_method {markers : Markers} {text after : Text} {head : Head}
    (h : parse? markers text = some (head, after)) : ∀ c ∈ head.method, isNameChar c := by
  obtain ⟨named, -, h⟩ := Option.bind_eq_some_iff.mp h
  obtain ⟨⟨qualifier, method, rest⟩, hname, h⟩ := Option.bind_eq_some_iff.mp h
  obtain ⟨⟨arguments, after'⟩, -, hfound⟩ := Option.map_eq_some_iff.mp h
  cases hfound
  unfold name? at hname
  split at hname
  · cases hname
  · split at hname <;> cases hname <;> exact List.all_eq_true.mp List.all_takeWhile

theorem marker_eq {markers : Markers} {text after : Text} {head : Head}
    (h : parse? markers text = some (head, after)) : head.marker = markers.call := by
  obtain ⟨named, -, h⟩ := Option.bind_eq_some_iff.mp h
  obtain ⟨⟨qualifier, method, rest⟩, -, h⟩ := Option.bind_eq_some_iff.mp h
  obtain ⟨⟨arguments, after'⟩, -, hfound⟩ := Option.map_eq_some_iff.mp h
  cases hfound
  rfl

theorem count_written (head : Head) :
    (head.argumentText.getD []).count '@' + head.marker.count '@' ≤ head.written.count '@' := by
  have harguments : (head.argumentText.getD []).count '@' ≤
      (argumentPart head.arguments).count '@' := by
    unfold argumentText argumentPart
    cases head.arguments with
    | none => exact Nat.le_refl _
    | some arguments =>
      have hinner : arguments.2.tail.dropLast.Sublist arguments.2 :=
        (List.dropLast_sublist _).trans (List.tail_sublist _)
      have hcount := hinner.count_le '@'
      simp only [Option.map_some, Option.getD_some, List.count_append]
      omega
  simp only [written, opener, List.count_append]
  omega

theorem not_mem_resolve {environment : Environment} {context : Context} {head : Head} {extra : Nat}
    {call : ResolvedCall} (hcontext : context.AtFree) (hmethod : ∀ c ∈ head.method, isNameChar c)
    (h : head.resolve environment context extra = .ok call) :
    '@' ∉ call.symbol ∧ '@' ∉ call.method := by
  have hcamel {name : Text} (hname : '@' ∉ name) : '@' ∉ Name.camel name := by
    apply Name.not_mem_uncapitalize Unicode.isCaseless_at
    rw [Name.studly, List.mem_flatMap]
    rintro ⟨word, hword, hmem⟩
    refine Name.not_mem_capitalize Unicode.isCaseless_at ?_ hmem
    exact fun hat => hname (Text.mem_of_mem_split hword hat)
  unfold resolve at h
  split at h
  · cases h
  · rename_i resolved hresolved
    simp only at h
    split at h
    · cases h
    · split at h
      · cases h
      · cases h
        refine ⟨?_, hcamel (Text.not_mem_of_all (by decide) hmethod)⟩
        unfold Environment.resolveAlias at hresolved
        split at hresolved
        · cases hresolved
        · rename_i binding hbinding
          split at hresolved
          · cases hresolved
          · cases hresolved
            have hentry : ∃ key, (key, binding) ∈ context.bindings := by
              unfold Context.binding at hbinding
              split at hbinding
              · rename_i bound hbound
                cases hbinding
                obtain ⟨before, after, hsplit, -⟩ := List.lookup_eq_some_iff.mp hbound
                exact ⟨Name.aliasKey (head.qualifierName.getD []), by rw [hsplit]; simp⟩
              · cases hbinding
            obtain ⟨key, hentry⟩ := hentry
            obtain ⟨hname, htarget⟩ := hcontext _ hentry
            simp only [Binding.symbol]
            split
            · unfold Binding.importName
              simp only
              split
              · exact Name.not_mem_capitalize Unicode.isCaseless_at (hcamel hname)
              · exact hcamel hname
            · rw [List.mem_cons, not_or]
              exact ⟨by decide, htarget⟩

end Head

/-- A simple call gives way to a statement with fewer at signs. -/
theorem SimpleCall.addsNone_step {environment : Environment} {context : Context}
    (hcontext : context.AtFree) {place : Place} {fresh : Nat} {move : Move}
    (h : step environment context place fresh = .ok move) : AddsNone '@' place.rest move := by
  unfold step at h
  simp only at h
  split at h
  · cases h
    trivial
  · split at h
    · cases h
      trivial
    · rename_i head after hhead
      split at h
      · cases h
        trivial
      · split at h
        · cases h
          trivial
        · split at h
          · cases h
            trivial
          · rename_i lead hlead
            split at h
            · cases h
            · rename_i call hcall
              cases h
              obtain ⟨hsymbol, hmethod⟩ :=
                Head.not_mem_resolve hcontext (Head.isNameChar_method hhead) hcall
              have hlead := Layout.not_mem_lead hlead
              have hpos := Head.written_length_pos hhead
              have hwritten : place.rest.take (head.written.length - 1 + 1) = head.written := by
                rw [Nat.sub_add_cancel hpos, Head.parse?_eq hhead, List.take_left]
              rw [AddsNone, hwritten, code,
                Code.count_output _ hlead (fun hmem => hlead (Layout.indentOf_subset lead hmem)),
                ResolvedCall.count_code hsymbol hmethod]
              exact Nat.le_trans (Nat.le_add_right _ _) head.count_written

theorem gives_simpleCalls (environment : Environment) (text : Text) :
    Gives AtFree (fun after => after.count '@' ≤ text.count '@')
      (Pass.ofContext fun context => simpleCalls environment context text) := by
  have hsweep : Gives AtFree (fun after => after.count '@' ≤ text.count '@')
      (sweep (fun place fresh => Pass.ofContext fun context =>
        SimpleCall.step environment context place fresh) text) := by
    refine gives_sweep (fun place fresh => ?_) text
    exact gives_ofContext fun context move hcontext hmove =>
      SimpleCall.addsNone_step hcontext hmove
  intro context hcontext
  have hgives := hsweep context hcontext
  rwa [sweep, Sweep.run_sweepFrom_ofContext (SimpleCall.step environment)] at hgives

theorem gives_first (environment : Environment) (depth : Nat) (text : Text) :
    Gives AtFree (fun after => after.count '@' ≤ text.count '@')
      (runPasses ((passesWithin environment depth).take 5) text) := by
  have hnext {pass : Text → Pass Text} (hpass : ∀ text,
      Gives AtFree (fun after => after.count '@' ≤ text.count '@') (pass text)) (reached : Text)
      (hreached : reached.count '@' ≤ text.count '@') :
      Gives AtFree (fun after => after.count '@' ≤ text.count '@') (pass reached) :=
    (hpass reached).mono fun _ h => Nat.le_trans h hreached
  refine (Directive.gives_uses text).bind fun first hfirst => ?_
  refine (hnext Directive.gives_namespaces first hfirst).bind fun second hsecond => ?_
  refine (hnext Directive.gives_configBlocks second hsecond).bind fun third hthird => ?_
  refine (hnext Directive.gives_contents third hthird).bind fun fourth hfourth => ?_
  refine (hnext (gives_simpleCalls environment) fourth hfourth).bind fun fifth hfifth => ?_
  exact gives_pure hfifth

end TemplateCompiler
