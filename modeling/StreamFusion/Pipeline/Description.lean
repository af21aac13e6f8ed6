import StreamFusion.Pipeline.Opening

/-!
# Descriptions

What can be told of a pipeline without running it.
-/

namespace StreamFusion

variable {α : Type}

namespace Pipeline

/-- The operations of a pipeline. -/
def describe (p : Pipeline α) : List OpInfo := p.recipe.ops.map Op.info

/-- The summary of the plan of a pipeline. -/
def planSummary (p : Pipeline α) : Act α PlanSummary := return (← p.recipe.plan).summary

/-- How the source of a pipeline can be read. -/
def sourceClass (p : Pipeline α) : Act α SourceClass := p.source.readingClass

/-- The record of a pipeline, with what is remembered of it. -/
def text (p : Pipeline α) : Act α String := do
  let known := (← Act.sourceMemo p.source.id).kindOfReading
  let consumed := (← Act.recipeMemo p.recipe.serial).isConsumed
  let source := Text.record "SourceHandle"
    [("kind", Text.quoted p.source.kind.name),
      ("class", Text.optional (known.map SourceClass.name))]
  return Text.record "Pipeline"
    [("source", source), ("ops", Op.listText p.recipe.ops), ("config", p.recipe.config.text),
      ("consumed", Text.truth consumed)]

end Pipeline

end StreamFusion
