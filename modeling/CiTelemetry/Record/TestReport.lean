/-
This file holds test reports, which come with their suites and cases nested
inside and are exported with each of them as a record of its own.
-/

import CiTelemetry.Json.Fields

namespace CiTelemetry

/-- One test and how it went. -/
structure TestCase where
  status : String
  name : String
  classname : Option String
  file : Option String
  executionTime : Binary64
  systemOutput : Option String
  stackTrace : Option String
  deriving DecidableEq, Repr, Inhabited

def TestCase.decode? (json : Json) : Option TestCase := do
  let fields ← json.asObject?
  let status ← fields.text? "status"
  let name ← fields.text? "name"
  let classname ← fields.maybeText? "classname"
  let file ← fields.maybeText? "file"
  let executionTime ← Json.defaulted? fields "execution_time" Json.asNumber? .zero
  let systemOutput ← fields.maybeText? "system_output"
  let stackTrace ← fields.maybeText? "stack_trace"
  pure ⟨status, name, classname, file, executionTime, systemOutput, stackTrace⟩

/-- The fields of the record, nested lists left out. -/
def TestCase.fields (testCase : TestCase) : Json.Fields :=
  [("status", .str testCase.status),
    ("name", .str testCase.name),
    ("classname", .ofOption .str testCase.classname),
    ("file", .ofOption .str testCase.file),
    ("execution_time", .ofNumber testCase.executionTime),
    ("system_output", .ofOption .str testCase.systemOutput),
    ("stack_trace", .ofOption .str testCase.stackTrace)]

/-- A group of tests. -/
structure TestSuite where
  name : String
  totalTime : Binary64
  totalCount : Int
  successCount : Int
  failedCount : Int
  skippedCount : Int
  errorCount : Int
  suiteError : Option String
  testCases : List TestCase
  deriving DecidableEq, Repr, Inhabited

def TestSuite.decode? (json : Json) : Option TestSuite := do
  let fields ← json.asObject?
  let name ← fields.text? "name"
  let totalTime ← Json.defaulted? fields "total_time" Json.asNumber? .zero
  let totalCount ← Json.defaulted? fields "total_count" Json.asSigned64? 0
  let successCount ← Json.defaulted? fields "success_count" Json.asSigned64? 0
  let failedCount ← Json.defaulted? fields "failed_count" Json.asSigned64? 0
  let skippedCount ← Json.defaulted? fields "skipped_count" Json.asSigned64? 0
  let errorCount ← Json.defaulted? fields "error_count" Json.asSigned64? 0
  let suiteError ← fields.maybeText? "suite_error"
  let testCases ← Json.defaulted? fields "test_cases" (Json.asList? TestCase.decode?) []
  pure ⟨name, totalTime, totalCount, successCount, failedCount, skippedCount, errorCount,
    suiteError, testCases⟩

/-- The fields of the record, nested lists left out. -/
def TestSuite.fields (suite : TestSuite) : Json.Fields :=
  [("name", .str suite.name),
    ("total_time", .ofNumber suite.totalTime),
    ("total_count", .int suite.totalCount),
    ("success_count", .int suite.successCount),
    ("failed_count", .int suite.failedCount),
    ("skipped_count", .int suite.skippedCount),
    ("error_count", .int suite.errorCount),
    ("suite_error", .ofOption .str suite.suiteError)]

/-- The test report of a pipeline. -/
structure TestReport where
  pipelineId : Int
  projectId : Int
  totalTime : Binary64
  totalCount : Int
  successCount : Int
  failedCount : Int
  skippedCount : Int
  errorCount : Int
  testSuites : List TestSuite
  deriving DecidableEq, Repr, Inhabited

/-- Reads a report. All of its fields have defaults, so that an empty list stands
for a report as well. -/
def TestReport.decode? (json : Json) : Option TestReport := do
  let fields ← match json with
    | .arr [] => some []
    | _ => json.asObject?
  let pipelineId ← Json.defaulted? fields "pipeline_id" Json.asSigned64? 0
  let projectId ← Json.defaulted? fields "project_id" Json.asSigned64? 0
  let totalTime ← Json.defaulted? fields "total_time" Json.asNumber? .zero
  let totalCount ← Json.defaulted? fields "total_count" Json.asSigned64? 0
  let successCount ← Json.defaulted? fields "success_count" Json.asSigned64? 0
  let failedCount ← Json.defaulted? fields "failed_count" Json.asSigned64? 0
  let skippedCount ← Json.defaulted? fields "skipped_count" Json.asSigned64? 0
  let errorCount ← Json.defaulted? fields "error_count" Json.asSigned64? 0
  let testSuites ← Json.defaulted? fields "test_suites" (Json.asList? TestSuite.decode?) []
  pure ⟨pipelineId, projectId, totalTime, totalCount, successCount, failedCount, skippedCount,
    errorCount, testSuites⟩

/-- The fields of the record, nested lists left out. -/
def TestReport.fields (report : TestReport) : Json.Fields :=
  [("pipeline_id", .int report.pipelineId),
    ("project_id", .int report.projectId),
    ("total_time", .ofNumber report.totalTime),
    ("total_count", .int report.totalCount),
    ("success_count", .int report.successCount),
    ("failed_count", .int report.failedCount),
    ("skipped_count", .int report.skippedCount),
    ("error_count", .int report.errorCount)]

/-- A report as it is exported: its suites are records of their own. -/
def TestReport.encode (report : TestReport) : Json :=
  .obj report.fields

/-! ### Suites and cases as records of their own -/

/-- A suite with the pipeline that it belongs to. -/
structure TestSuiteRecord where
  pipelineId : Int
  projectId : Int
  index : Nat
  suite : TestSuite
  deriving DecidableEq, Repr, Inhabited

def TestSuiteRecord.encode (entry : TestSuiteRecord) : Json :=
  .obj ([("pipeline_id", .int entry.pipelineId), ("project_id", .int entry.projectId),
    ("index", .ofNat entry.index)] ++ entry.suite.fields)

/-- A case with the suite and the pipeline that it belongs to. -/
structure TestCaseRecord where
  pipelineId : Int
  projectId : Int
  suiteIndex : Nat
  suiteName : String
  testCase : TestCase
  deriving DecidableEq, Repr, Inhabited

def TestCaseRecord.encode (entry : TestCaseRecord) : Json :=
  .obj ([("pipeline_id", .int entry.pipelineId), ("project_id", .int entry.projectId),
    ("suite_index", .ofNat entry.suiteIndex), ("suite_name", .str entry.suiteName)] ++
      entry.testCase.fields)

namespace TestReport

/-- The suites of a report in their order. -/
def suiteRecords (report : TestReport) : List TestSuiteRecord :=
  report.testSuites.zipIdx.map fun (suite, index) =>
    ⟨report.pipelineId, report.projectId, index, suite⟩

/-- The cases of a report in the order of their suites. -/
def caseRecords (report : TestReport) : List TestCaseRecord :=
  report.testSuites.zipIdx.flatMap fun (suite, index) =>
    suite.testCases.map fun testCase =>
      ⟨report.pipelineId, report.projectId, index, suite.name, testCase⟩

end TestReport

end CiTelemetry
