import OpenStrata.Ci.GitHub

/-!
# The release workflow

The tag-triggered workflow of a matrix with a release block: a gate on the tag, one job over the
candidate cells and, in publish mode, the publisher. The job over the candidates builds them from
source through the same prerequisites as the source jobs.

## Main definitions

* `candidateJob`: the job over the candidate cells
* `releasePublisherJob`: the isolated publisher
* `generateRelease`: the release workflow
* `generateGithubWithSourceMode`: all workflows of a matrix
-/

namespace OpenStrata.Ci

def reproducibilityStep : Document :=
  lines [
    ["      - name: Repackage and prove reproducibility"],
    ["        shell: bash"],
    ["        run: |"],
    ["          set -euo pipefail"],
    ["          sums=\"$(find \"", .ref .bundle,
     "/.strata/dist\" -type f -name SHA256SUMS -print -quit)\""],
    ["          if [ -z \"$sums\" ]; then echo \"::error title=release::package ",
     "produced no SHA256SUMS\"; exit 1; fi"],
    ["          cp \"$sums\" .ost-release/first-SHA256SUMS"],
    ["          ost plugin package ", .ref .bundle, " --target ", .ref .platform, " --profile ",
     .ref .profile],
    ["          cmp .ost-release/first-SHA256SUMS \"$sums\""]]

def acrossBuildStep : Document :=
  lines [
    ["      - name: Rebuild in an isolated root and prove reproducibility"],
    ["        shell: bash"],
    ["        run: |"],
    ["          set -euo pipefail"],
    ["          first_sums=\"$(find \"", .ref .bundle,
     "/.strata/dist\" -type f -name SHA256SUMS -print -quit)\""],
    ["          first_manifest=\"$(dirname \"$first_sums\")/manifest.json\""],
    ["          cp \"$first_sums\" .ost-release/across-build-first-SHA256SUMS"],
    ["          cp \"$first_manifest\" .ost-release/across-build-first-manifest.json"],
    ["          mkdir -p .ost-release/rebuild-source"],
    ["          git archive --format=tar HEAD | tar -xf - -C ", ".ost-release/rebuild-source"],
    ["          second_bundle=\".ost-release/rebuild-source/", .ref .bundle, "\""],
    ["          ost plugin build \"$second_bundle\" --target ", .ref .platform, " --profile ",
     .ref .profile],
    ["          ost plugin package \"$second_bundle\" --target ", .ref .platform, " --profile ",
     .ref .profile],
    ["          second_sums=\"$(find \"$second_bundle/.strata/dist\" -type f ",
     "-name SHA256SUMS -print -quit)\""],
    ["          second_manifest=\"$(dirname \"$second_sums\")/manifest.json\""],
    ["          if ! cmp .ost-release/across-build-first-SHA256SUMS ", "\"$second_sums\"; then"],
    ["            echo \"::error title=reproducibility::isolated builds produced ",
     "different artifacts; first differing sorted manifest entry follows\""],
    ["            diff -u .ost-release/across-build-first-manifest.json ",
     "\"$second_manifest\" | head -80 || true"],
    ["            exit 1"],
    ["          fi"]]

def fromPackageStep : Document :=
  lines [
    ["      - name: Test the clean extracted package"],
    ["        shell: bash"],
    ["        run: ost plugin test ", .ref .bundle, " --target ", .ref .platform, " --profile ",
     .ref .profile, " --up-to ", .ref .upTo, " --from-package --json"]]

/-- The steps that build, verify and stage one candidate. -/
def releaseCandidateSteps (m : SupportMatrix) (release : ReleaseLane) (policy : String) :
    Document :=
  lines [
    ["    steps:"],
    ["      - name: Check out the repository"],
    ["        uses: ", .text CHECKOUT]] ++
  BILLING_NOTICE ++
  (m.bootstrap.elim [] fun b => bootstrapStep b true) ++
  ostVersionStep m.bootstrap ++
  lines [
    ["      - name: Enforce tag and bundle version agreement"],
    ["        shell: bash"],
    ["        run: |"],
    ["          set -euo pipefail"],
    ["          expected=\"v", .value release.version, "\""],
    ["          if [ \"$GITHUB_REF_TYPE\" != tag ] || [ \"$GITHUB_REF_NAME\" != ",
     "\"$expected\" ]; then"],
    ["            echo \"::error title=release ref::expected tag $expected, got ",
     "$GITHUB_REF_TYPE $GITHUB_REF_NAME\"; exit 1"],
    ["          fi"],
    ["          mkdir -p .ost-release"],
    ["          ost --json plugin inspect ", .ref .bundle, " --expect-version ",
     .value release.version, " > .ost-release/inspect.json"],
    ["      - name: Validate the trusted CI manifest"],
    ["        shell: bash"],
    ["        run: ost ci validate"]] ++
  runtimeFetchSteps m.bootstrap ++
  lines [
    ["      - name: Verify and materialize the pinned runtime SDK"],
    ["        shell: bash"],
    ["        run: |"],
    ["          set -euo pipefail"],
    ["          mkdir -p .ost-ci"],
    ["          set --"],
    ["          if [ -n \"", .ref .requireOpenusd, "\" ]; then"],
    ["            set -- \"$@\" --require-openusd \"", .ref .requireOpenusd, "\""],
    ["          fi"],
    ["          if [ -n \"", .ref .requireOpenusdVersion, "\" ]; then"],
    ["            set -- \"$@\" --require-openusd-version \"", .ref .requireOpenusdVersion, "\""],
    ["          fi"],
    ["          ost artifact verify ", .ref .runtimeArtifact, " --minimum-trust ",
     .ref .minimumTrust, " ", .ref .evidenceFlags, " \"$@\" --policy ", .value policy],
    ["          ost runtime pull ", .ref .platform, " --profile ", .ref .profile,
     " --from-artifact ", .ref .runtimeArtifact, " --force"]] ++
  prebuildSteps m ++
  lines [
    ["      - name: Pull digest-pinned external library artifacts"],
    ["        shell: bash"],
    ["        run: ost library pull --target ", .ref .platform, " --profile ", .ref .profile,
     " --json"],
    ["      - name: Build the release candidate from source"],
    ["        shell: bash"],
    ["        run: ost plugin build ", .ref .bundle, " --target ", .ref .platform, " --profile ",
     .ref .profile],
    ["      - name: Run the release verification pyramid"],
    ["        shell: bash"],
    ["        run: ost plugin test ", .ref .bundle, " --target ", .ref .platform, " --profile ",
     .ref .profile, " --up-to ", .ref .upTo, " --json"]] ++
  sourceCheckSteps m.sourceChecks [] ++ sourceCheckSteps release.checks [] ++
  lines [
    ["      - name: Package the lean release candidate"],
    ["        shell: bash"],
    ["        run: |"],
    ["          set -euo pipefail"],
    ["          mkdir -p .ost-release"],
    ["          ost plugin package ", .ref .bundle, " --target ", .ref .platform, " --profile ",
     .ref .profile]] ++
  (if release.reproducible then reproducibilityStep else []) ++
  (if release.reproducibleAcrossBuilds then acrossBuildStep else []) ++
  (if release.fromPackage then fromPackageStep else []) ++
  lines [
    ["      - name: Verify and stage the immutable candidate"],
    ["        shell: bash"],
    ["        run: |"],
    ["          set -euo pipefail"],
    ["          ost plugin publish ", .ref .bundle, " --target ", .ref .platform, " --profile ",
     .ref .profile, " | tee .ost-release/publish.txt"],
    ["          digest=\"$(sed -n 's/^[[:space:]]*digest: ",
     "\\(sha256:[0-9a-fA-F]\\\x7b64\\\x7d\\)$/\\1/p' .ost-release/publish.txt | ", "tail -n 1)\""],
    ["          if [ -z \"$digest\" ]; then echo \"::error title=release::publish ",
     "produced no artifact digest\"; exit 1; fi"],
    ["          ost artifact verify \"$digest\" --minimum-trust ",
     .value m.trust.releaseMinTrust.asStr, " --require-sbom --require-provenance --policy ",
     .value policy],
    ["          ost artifact export \"$digest\" .ost-release/candidate"],
    ["          printf '%s\\n' \"$digest\" > .ost-release/candidate/artifact.digest"],
    ["          printf '%s\\n' \"", .ref .name, "\" > .ost-release/candidate/cell.name"],
    ["      - name: Upload the immutable candidate handoff"],
    ["        uses: ", .text UPLOAD_ARTIFACT],
    ["        with:"]] ++
  lines [
    ["          name: candidate-", .ref .name],
    ["          path: .ost-release/candidate/"],
    ["          if-no-files-found: error"],
    ["      - name: Upload release reports and CI evidence"],
    ["        if: always()"],
    ["        uses: ", .text UPLOAD_ARTIFACT],
    ["        with:"],
    ["          name: release-report-", .ref .name],
    ["          path: |"],
    ["            ", .ref .bundle, "/.strata/reports/"],
    ["            .ost-ci/"],
    ["            .ost-release/inspect.json"],
    ["            .ost-release/publish.txt"]]

/-- The job over the candidates. Its entries carry the keys of a source job. -/
def candidateJob (m : SupportMatrix) (release : ReleaseLane) (policy : String) : Job where
  id := "candidates"
  gate := .needs "validate-release-ref"
  title := ["candidate ", .ref .name]
  env := ciEnv false true ++ ostHome m ".ost-release-home"
  strategy := plainStrategy
  cells := m.candidateCells
  entry := fun cell => includeEntry m cell (sourceBuildIncludeKeys cell)
  steps := releaseCandidateSteps m release policy

/-- The publisher of verified candidates, the only job with a credential. -/
def publishJob (m : SupportMatrix) (release : ReleaseLane) (policy runnerName : String)
    (runner : RunnerProfile) (destination : String) : Document :=
  lines [
    ["  publish:"],
    ["    needs: candidates"],
    ["    name: Publish verified candidates"],
    ["    runs-on: ", .ref .runsOn]] ++
  (release.environment.elim [] fun name => lines [["    environment: ", .value name]]) ++
  lines [
    ["    permissions:"],
    ["      contents: read"],
    ["      id-token: write"],
    ["      packages: write"],
    ["    env:"],
    ["      OST_HOME: $\x7b\x7b github.workspace \x7d\x7d/.ost-publish-home"],
    ["    strategy:"],
    ["      matrix:"],
    ["        include:"],
    ["          - name: ", .value runnerName],
    ["            hosted: ", .text (toString runner.isHosted)],
    [.text "            runs_on: ["] ++ labelPieces runner.runsOn ++ [.text "]"],
    ["    steps:"],
    ["      - name: Check out the repository trust policy"],
    ["        uses: ", .text CHECKOUT]] ++
  (m.bootstrap.elim [] fun b => bootstrapStep b true) ++
  ostVersionStep m.bootstrap ++
  lines [
    ["      - name: Download immutable candidate handoffs"],
    ["        uses: ", .text DOWNLOAD_ARTIFACT],
    ["        with:"],
    ["          pattern: candidate-*"],
    ["          path: .ost-release/candidates"],
    ["      - name: Re-verify and publish candidates"],
    ["        shell: bash"],
    ["        # The registry credential is step-scoped: bootstrap and download run"],
    ["        # without it."],
    ["        env:"],
    ["          OST_REGISTRY_USER: $\x7b\x7b github.actor \x7d\x7d"],
    ["          OST_REGISTRY_PASSWORD: $\x7b\x7b secrets.GITHUB_TOKEN \x7d\x7d"],
    ["        run: |"],
    ["          set -euo pipefail"],
    ["          mkdir -p .ost-release/results"],
    ["          found=0"],
    ["          for candidate in .ost-release/candidates/candidate-*; do"]] ++
  lines [
    ["            [ -d \"$candidate\" ] || continue"],
    ["            found=1"],
    ["            digest=\"$(tr -d '\\r\\n' < \"$candidate/artifact.digest\")\""],
    ["            cell=\"$(tr -d '\\r\\n' < \"$candidate/cell.name\")\""],
    ["            case \"$digest\" in sha256:[0-9a-fA-F]*) ;; *) echo \"::error ",
     "title=release::invalid candidate digest\"; exit 1 ;; esac"],
    ["            ost artifact import \"$candidate\""],
    ["            ost artifact verify \"$digest\" --minimum-trust ",
     .value m.trust.releaseMinTrust.asStr, " --require-sbom --require-provenance --policy ",
     .value policy],
    ["            ost --json artifact push \"$digest\" \"", .value destination, ":",
     .value release.version, "-$cell\" --policy ", .value policy,
     " > \".ost-release/results/$cell.json\""],
    ["          done"],
    ["          if [ \"$found\" != 1 ]; then echo \"::error title=release::no ",
     "candidate handoffs downloaded\"; exit 1; fi"],
    ["      - name: Upload publication evidence"],
    ["        if: always()"],
    ["        uses: ", .text UPLOAD_ARTIFACT],
    ["        with:"],
    ["          name: publication-evidence"],
    ["          path: .ost-release/results/"],
    ["          if-no-files-found: error"]]

/-- Draft mode has no publisher. Validation provides the runner and the destination. -/
def releasePublisherJob (m : SupportMatrix) (release : ReleaseLane) (policy : String) :
    Document :=
  match release.mode, release.publisherRunner, release.destination with
  | .publish, some runnerName, some destination =>
    (m.profile runnerName).elim [] fun runner =>
      publishJob m release policy runnerName runner destination
  | _, _, _ => []

/-- The release workflow of a matrix with a release block. Validation provides the policy. -/
def generateRelease (m : SupportMatrix) : Option Document := do
  let release ← m.release
  let policy ← m.trust.policy
  return lines [
    ["# Generated by `ost ci generate github` from openstrata.ci.yaml."],
    ["# Regenerate after editing the matrix; do not edit the jobs by hand."],
    ["#"],
    ["# Trusted release: a read-only tag/ref gate feeds isolated candidate builders."],
    ["# Only the final publisher receives OIDC/package permissions, and only after"],
    ["# every candidate passes reproducibility, clean-package, evidence, and policy"],
    ["# verification. Draft mode intentionally omits that publisher job."],
    ["name: ost trusted release"],
    [],
    ["on:"],
    ["  push:"],
    ["    tags: [\"v*\"]"],
    [],
    ["permissions:"],
    ["  contents: read"]] ++
  lines [
    [],
    ["jobs:"],
    ["  validate-release-ref:"],
    ["    name: Validate release ref"],
    ["    runs-on: ubuntu-latest"],
    ["    steps:"],
    ["      - name: Require the exact release tag"],
    ["        shell: bash"],
    ["        run: |"],
    ["          set -euo pipefail"],
    ["          expected=\"v", .value release.version, "\""],
    ["          if [ \"$GITHUB_REF_TYPE\" != tag ] || [ \"$GITHUB_REF_NAME\" != ",
     "\"$expected\" ]; then"],
    ["            echo \"::error title=release ref::expected tag $expected, got ",
     "$GITHUB_REF_TYPE $GITHUB_REF_NAME\"; exit 1"],
    ["          fi"]] ++
  (candidateJob m release policy).pieces ++ releasePublisherJob m release policy

/-! ## All workflows -/

/-- One rendered workflow: where it belongs and its document. -/
structure GeneratedWorkflow where
  path : String
  document : Document

def WORKFLOW_PATH : String := ".github/workflows/ost-support-matrix.yml"

def SOURCE_WORKFLOW_PATH : String := ".github/workflows/ost-source-ci.yml"

def RELEASE_WORKFLOW_PATH : String := ".github/workflows/ost-release.yml"

/-- The workflows of a matrix: support, source CI, then release. -/
def generateGithubWithSourceMode (m : SupportMatrix) (mode : SourceWorkflowMode) :
    List GeneratedWorkflow :=
  ((generateSupport m).map (GeneratedWorkflow.mk WORKFLOW_PATH)).toList ++
    ((generateSourceWithMode m mode).map (GeneratedWorkflow.mk SOURCE_WORKFLOW_PATH)).toList ++
    ((generateRelease m).map (GeneratedWorkflow.mk RELEASE_WORKFLOW_PATH)).toList

end OpenStrata.Ci
