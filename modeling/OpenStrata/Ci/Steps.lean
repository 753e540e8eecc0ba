import OpenStrata.Ci.Document

/-!
# The steps of generated jobs

The step lists of the generated jobs, text for text. Steps read what differs between cells from
the matrix entry of their job, so most of them depend on the support matrix only through what it
declares at all.

## Main definitions

* `checkoutPreamble`, `sourcePreamble`: what jobs do before they build
* `sourceCheckSteps`: the repository checks
* `sourceSteps`, `workspaceSteps`, `runtimeFreeWorkspaceSteps`, `workspaceGraphSteps`: the steps
  of each shape of a source job
* `supportSteps`: the steps of a support job
-/

namespace OpenStrata.Ci

/-! ## Pinned actions and shared steps -/

def CHECKOUT : String :=
  "actions/checkout@9c091bb21b7c1c1d1991bb908d89e4e9dddfe3e0 # v7.0.0"

def UPLOAD_ARTIFACT : String :=
  "actions/upload-artifact@043fb46d1a93c77aae656e7c1c64a875d1fc6a0a # v7"

def DOWNLOAD_ARTIFACT : String :=
  "actions/download-artifact@3e5f45b2cfb9172054b4087a40e8e0b5a5461e7c # v8"

def CACHE_RESTORE : String :=
  "actions/cache/restore@55cc8345863c7cc4c66a329aec7e433d2d1c52a9 # v6.1.0"

def CACHE_SAVE : String :=
  "actions/cache/save@55cc8345863c7cc4c66a329aec7e433d2d1c52a9 # v6.1.0"

def SETUP_PYTHON : String :=
  "actions/setup-python@ece7cb06caefa5fff74198d8649806c4678c61a1 # v6.3.0"

/-- The provisioning step of host packages. Every arm ends in an install or an error. -/
def HOST_PACKAGES_STEP : Document :=
  lines [
    ["      - name: Install the host packages this runtime needs to be consumed"],
    ["        if: $\x7b\x7b ", .key .hostPackagesApt, " != '' || ", .key .hostPackagesBrew,
     " != '' \x7d\x7d"],
    ["        shell: bash"],
    ["        env:"],
    ["          HOST_PACKAGES_APT: ", .ref .hostPackagesApt],
    ["          HOST_PACKAGES_BREW: ", .ref .hostPackagesBrew],
    ["        run: |"],
    ["          set -euo pipefail"],
    ["          case \"$RUNNER_OS\" in"],
    ["            Linux)"],
    ["              packages=\"$HOST_PACKAGES_APT\""],
    ["              if [ -z \"$packages\" ]; then"],
    ["                echo \"error: this cell declares host_packages but nothing ",
     "under 'apt'; a Linux runner installs from the 'apt' list\" >&2"],
    ["                exit 1"],
    ["              fi"],
    ["              sudo apt-get update"],
    ["              sudo apt-get install -y --no-install-recommends $packages"],
    ["              ;;"],
    ["            macOS)"],
    ["              packages=\"$HOST_PACKAGES_BREW\""],
    ["              if [ -z \"$packages\" ]; then"],
    ["                echo \"error: this cell declares host_packages but nothing ",
     "under 'brew'; a macOS runner installs from the 'brew' list\" >&2"],
    ["                exit 1"],
    ["              fi"],
    ["              brew install $packages"],
    ["              ;;"],
    ["            *)"],
    ["              echo \"error: host_packages has no installer for $RUNNER_OS; ",
     "provision the dependency on the runner image instead\" >&2"],
    ["              exit 1"],
    ["              ;;"],
    ["          esac"]]

/-- The billing notice, quiet on self-hosted cells. -/
def BILLING_NOTICE : Document :=
  lines [
    ["      - name: Hosted runner billing notice"],
    ["        if: ", .ref .hosted],
    ["        shell: bash"],
    ["        run: echo \"::notice title=OpenStrata hosted-runner usage::This job ",
     "uses GitHub-hosted infrastructure. Private repositories may incur GitHub ",
     "Actions usage charges. Review repository billing and Actions usage ", "settings.\""]]

/-! ## Bootstrap -/

/-- The exact pins of the release archives, one arm for each triple. -/
def pinLines (pins : List (String × String)) : Document :=
  lines (pins.map fun pin =>
    ["            ", .value pin.1, ") pinned=\"", .value pin.2, "\" ;;"])

/-- The refusal of a triple without an exact pin. -/
def exactPinGate : Document :=
  lines [
    ["          if [ -z \"$pinned\" ]; then"],
    ["            echo \"::error title=ost bootstrap::trusted release requires an ",
     "exact checksum pin for $triple\" ; exit 1"],
    ["          fi"]]

/-- Install the pinned `ost` on a hosted runner. A failure here is a bootstrap failure, in a step of
its own. -/
def bootstrapStep (bootstrap : Bootstrap) (requireExactPin : Bool) : Document :=
  lines [
    ["      - name: Bootstrap ost ", .value bootstrap.ost.version,
     " (pinned release asset, checksum-verified)"],
    ["        if: ", .ref .hosted],
    ["        shell: bash"],
    ["        run: |"],
    ["          set -euo pipefail"],
    ["          mkdir -p .ost-ci"],
    ["          case \"$\x7bRUNNER_OS\x7d-$\x7bRUNNER_ARCH\x7d\" in"],
    ["            Linux-X64)   triple=x86_64-unknown-linux-musl ; ext=tar.xz ;;"],
    ["            macOS-ARM64) triple=aarch64-apple-darwin ; ext=tar.xz ;;"],
    ["            macOS-X64)   triple=x86_64-apple-darwin ; ext=tar.xz ;;"],
    ["            Windows-X64) triple=x86_64-pc-windows-msvc ; ext=zip ;;"],
    ["            *) echo \"::error title=ost bootstrap::no ost release asset for ",
     "$\x7bRUNNER_OS\x7d-$\x7bRUNNER_ARCH\x7d\" ; exit 1 ;;"],
    ["          esac"],
    ["          pinned=\"\""],
    ["          case \"$triple\" in"]] ++
  pinLines bootstrap.ost.sha256 ++
  lines [
    ["            *) : ;;"],
    ["          esac"]] ++
  (if requireExactPin then exactPinGate else []) ++
  lines [
    ["          asset=\"ost-cli-$\x7btriple\x7d.$\x7bext\x7d\""],
    ["          base=\"https://github.com/", .value bootstrap.ost.repository,
     "/releases/download/v", .value bootstrap.ost.version, "\""],
    ["          curl -fsSLo \"$asset\" \"$base/$asset\""],
    ["          curl -fsSLo \"$asset.sha256\" \"$base/$asset.sha256\""],
    ["          actual=\"$( (command -v sha256sum > /dev/null && sha256sum ",
     "\"$asset\" || shasum -a 256 \"$asset\") | cut -d' ' -f1 )\""],
    ["          published=\"$(cut -d' ' -f1 \"$asset.sha256\")\""],
    ["          if [ \"$actual\" != \"$published\" ]; then"],
    ["            echo \"::error title=ost bootstrap::$asset hashes to $actual ",
     "but the release publishes $published\" ; exit 1"],
    ["          fi"],
    ["          if [ -n \"$pinned\" ] && [ \"$actual\" != \"$pinned\" ]; then"],
    ["            echo \"::error title=ost bootstrap::$asset hashes to $actual ",
     "but the CI contract pins $pinned\" ; exit 1"],
    ["          fi"],
    ["          mkdir -p .ost-ci/bootstrap-bin"],
    ["          if [ \"$ext\" = \"zip\" ]; then"],
    ["            powershell -NoProfile -Command \"Expand-Archive -LiteralPath ",
     "'$asset' -DestinationPath '.ost-ci/bootstrap-bin' -Force\""],
    ["          else"],
    ["            tar -xf \"$asset\" -C .ost-ci/bootstrap-bin"],
    ["          fi"]] ++
  lines [
    ["          bin=\"$(find .ost-ci/bootstrap-bin -type f \\( -name ost -o -name ",
     "ost.exe \\) | head -n 1)\""],
    ["          if [ -z \"$bin\" ]; then echo \"::error title=ost bootstrap::no ",
     "ost binary inside $asset\" ; exit 1 ; fi"],
    ["          chmod +x \"$bin\" 2> /dev/null || true"],
    ["          bin_dir=\"$(cd \"$(dirname \"$bin\")\" && pwd)\""],
    ["          bin=\"$bin_dir/$(basename \"$bin\")\""],
    ["          executable=\"$bin\""],
    ["          exported_path=\"$bin_dir\""],
    ["          if [ \"$RUNNER_OS\" = \"Windows\" ]; then"],
    ["            if ! command -v cygpath > /dev/null; then"],
    ["              echo \"::error title=ost bootstrap::cygpath is required to ",
     "export a native Windows PATH\" ; exit 1"],
    ["            fi"],
    ["            executable=\"$(cygpath -w \"$bin\")\""],
    ["            exported_path=\"$(cygpath -w \"$bin_dir\")\""],
    ["          fi"],
    ["          echo \"$exported_path\" >> \"$GITHUB_PATH\""],
    ["          json_executable=\"$(printf '%s' \"$executable\" | sed ",
     "'s/\\\\/\\\\\\\\/g; s/\"/\\\\\"/g')\""],
    ["          json_exported_path=\"$(printf '%s' \"$exported_path\" | sed ",
     "'s/\\\\/\\\\\\\\/g; s/\"/\\\\\"/g')\""],
    ["          printf ",
     "'\x7b\"schema\":1,\"pinned_version\":\"%s\",\"asset\":\"%s\",\"sha256\":\"%s",
     "\",\"executable\":\"%s\",\"exported_path\":\"%s\"\x7d\\n' \"", .value bootstrap.ost.version,
     "\" \"$asset\" \"$actual\" \"$json_executable\" \"$json_exported_path\" > ",
     ".ost-ci/bootstrap.json"]]

/-- The version of `ost`, asked through PowerShell on hosted Windows runners. -/
def resolveVersionHosted : Document :=
  lines [
    ["          if [ \"", .ref .hosted,
     "\" = \"true\" ] && [ \"$RUNNER_OS\" = \"Windows\" ]; then"],
    ["            version=\"$(powershell -NoProfile -Command \"& ost.exe ",
     "--version\" | tr -d '\\r')\""],
    ["          else"],
    ["            version=\"$(ost --version)\""],
    ["          fi"]]

/-- Hosted cells must report exactly the pinned version. -/
def assertVersion (version : String) : Document :=
  lines [
    ["          if [ \"", .ref .hosted, "\" = \"true\" ] && [ \"$version\" != \"ost ",
     .value version, "\" ]; then"],
    ["            echo \"::error title=ost bootstrap::expected 'ost ", .value version,
     "', got '$version'\" ; exit 1"],
    ["          fi"]]

/-- The check that `ost` is available. With a bootstrap pin, hosted cells must report its
version. -/
def ostVersionStep (bootstrap : Option Bootstrap) : Document :=
  lines [
    ["      - name: Check ost is available and record its version"],
    ["        shell: bash"],
    ["        run: |"],
    ["          set -euo pipefail"],
    ["          mkdir -p .ost-ci"]] ++
  (if bootstrap.isSome then resolveVersionHosted else
    lines [["          version=\"$(ost --version)\""]]) ++
  lines [
    [],
    ["          echo \"$version\""]] ++
  (bootstrap.elim [] fun b => assertVersion b.ost.version) ++
  lines [
    ["          printf '\x7b\"schema\":1,\"ost_version\":\"%s\"\x7d\\n' ",
     "\"$version\" > .ost-ci/ost-version.json"]]

/-! ## The runtime -/

def restoreCacheStep (version : String) : Document :=
  lines [
    ["      - name: Restore the artifact registry cache (speed only, never ", "correctness)"],
    ["        id: runtime-cache-restore"],
    ["        if: $\x7b\x7b ", .key .hosted, " && vars.OST_CI_DISABLE_CACHE != 'true' \x7d\x7d"],
    ["        uses: ", .text CACHE_RESTORE],
    ["        with:"],
    ["          path: .ost-ci-home/artifacts"],
    ["          key: ost-registry-", .value version,
     "-$\x7b\x7b runner.os \x7d\x7d-$\x7b\x7b runner.arch \x7d\x7d-", .ref .name, "-",
     .ref .runtimeArtifact]]

/-- The registry cache and the remote pull. The cache saves time and is never trusted. -/
def runtimeFetchSteps (bootstrap : Option Bootstrap) : Document :=
  (bootstrap.elim [] fun b => restoreCacheStep b.ost.version) ++
  lines [
    ["      - name: Pull the pinned runtime SDK from its remote reference"],
    ["        if: $\x7b\x7b ", .key .runtimeRemote, " != '' \x7d\x7d"],
    ["        shell: bash"],
    ["        run: |"],
    ["          set -euo pipefail"],
    ["          mkdir -p .ost-ci"],
    ["          set --"],
    ["          if [ -n \"", .ref .requireOpenusd, "\" ]; then"],
    ["            set -- \"$@\" --require-openusd \"", .ref .requireOpenusd, "\""],
    ["          fi"],
    ["          if [ -n \"", .ref .requireOpenusdVersion, "\" ]; then"],
    ["            set -- \"$@\" --require-openusd-version \"", .ref .requireOpenusdVersion, "\""],
    ["          fi"],
    ["          if ost artifact show \"", .ref .runtimeArtifact, "\" --json > /dev/null 2>&1 \\"],
    ["             && ost artifact verify \"", .ref .runtimeArtifact, "\" ", .ref .evidenceFlags,
     " \"$@\" --json > .ost-ci/runtime-cache-verify.json; then"],
    ["            echo \"pinned runtime already present and verified (cache hit) ",
     "-- skipping the remote pull\""],
    ["          else"],
    ["            if [ \"", .ref .hosted,
     "\" = \"true\" ] && [ -n \"$\x7bOST_HOME:-\x7d\" ]; then"],
    ["              rm -rf \"$\x7bOST_HOME\x7d/artifacts\""],
    ["            fi"],
    ["            ost artifact pull \"", .ref .runtimeRemote, "\" --expect-artifact \"",
     .ref .runtimeArtifact,
     "\" --require-kind runtime \"$@\" --json | tee .ost-ci/runtime-pull.json"],
    ["          fi"]]

def saveCacheStep (version : String) : Document :=
  lines [
    ["      - name: Remove resumable transfer state before caching"],
    ["        if: $\x7b\x7b ", .key .hosted, " && vars.OST_CI_DISABLE_CACHE != 'true' && ",
     "steps.runtime-cache-restore.outputs.cache-hit != 'true' \x7d\x7d"],
    ["        shell: bash"],
    ["        run: rm -rf .ost-ci-home/artifacts/.partial-blobs"],
    ["      - name: Save the verified artifact registry cache"],
    ["        if: $\x7b\x7b ", .key .hosted, " && vars.OST_CI_DISABLE_CACHE != 'true' && ",
     "steps.runtime-cache-restore.outputs.cache-hit != 'true' \x7d\x7d"],
    ["        uses: ", .text CACHE_SAVE],
    ["        with:"],
    ["          path: .ost-ci-home/artifacts"],
    ["          key: ost-registry-", .value version,
     "-$\x7b\x7b runner.os \x7d\x7d-$\x7b\x7b runner.arch \x7d\x7d-", .ref .name, "-",
     .ref .runtimeArtifact]]

/-- The registry is saved only after the pinned artifact has passed its gate. -/
def runtimeCacheSaveStep (bootstrap : Option Bootstrap) : Document :=
  bootstrap.elim [] fun b => saveCacheStep b.ost.version

/-- The declared interpreter on hosted runners, and its record as evidence. -/
def hostPythonSteps : Document :=
  lines [
    ["      - name: Set up host Python for schema tooling"],
    ["        if: $\x7b\x7b ", .key .hosted, " && ", .key .hostPython, " != '' \x7d\x7d"],
    ["        uses: ", .text SETUP_PYTHON],
    ["        with:"],
    ["          python-version: ", .ref .hostPython],
    ["      - name: Record the schema-tooling Python contract"],
    ["        shell: bash"],
    ["        run: |"],
    ["          set -euo pipefail"],
    ["          mkdir -p .ost-ci"],
    ["          if [ \"", .ref .hosted, "\" = \"true\" ] && [ -n \"", .ref .hostPython,
     "\" ]; then"],
    ["            source=host-setup-python"],
    ["          elif [ -n \"", .ref .hostPython, "\" ]; then"],
    ["            source=operator-provisioned"],
    ["          else"],
    ["            source=runtime-bundled"],
    ["          fi"],
    ["          printf ", "'\x7b\"schema\":1,\"host_python\":\"%s\",\"source\":\"%s\"\x7d\\n' \"",
     .ref .hostPython, "\" \"$source\" > .ost-ci/python-setup.json"]]

/-- What a build needs from its host, then the validation of the materialized runtime. -/
def prebuildSteps (m : SupportMatrix) : Document :=
  (if m.needsHostPackages then HOST_PACKAGES_STEP else []) ++
  (if m.needsHostPython then hostPythonSteps else []) ++
  lines [
    ["      - name: Validate the materialized runtime (runnable tools)"],
    ["        shell: bash"],
    ["        run: |"],
    ["          set -euo pipefail"],
    ["          mkdir -p .ost-ci"],
    ["          ost runtime validate ", .ref .platform, " --profile ", .ref .profile,
     " --json | tee .ost-ci/runtime-validate.json"]]

/-- Checkout, bootstrap and manifest validation; nothing here needs a runtime. -/
def checkoutPreamble (m : SupportMatrix) : Document :=
  lines [
    ["    steps:"],
    ["      - name: Check out the repository"],
    ["        uses: ", .text CHECKOUT]] ++
  BILLING_NOTICE ++
  (m.bootstrap.elim [] fun b => bootstrapStep b false) ++
  ostVersionStep m.bootstrap ++
  lines [
    ["      - name: Validate the CI manifest"],
    ["        shell: bash"],
    ["        run: ost ci validate"]]

/-- The flag that names the trust policy, when there is one. -/
def policyFlag (m : SupportMatrix) : Document :=
  m.trust.policy.elim [] fun path => [.text " --policy ", .value path]

/-- What every job does before it builds against a runtime. -/
def sourcePreamble (m : SupportMatrix) : Document :=
  checkoutPreamble m ++
  runtimeFetchSteps m.bootstrap ++
  lines [
    ["      - name: Verify and materialize the pinned runtime SDK"],
    ["        shell: bash"],
    ["        run: |"],
    ["          set -euo pipefail"],
    ["          mkdir -p .ost-ci"],
    ["          printf ",
     "'\x7b\"schema\":1,\"runtime_artifact\":\"%s\",\"require_openusd\":\"%s\",\"re",
     "quire_openusd_version\":\"%s\",\"source\":\"%s\"\x7d\\n' \"", .ref .runtimeArtifact,
     "\" \"", .ref .requireOpenusd, "\" \"", .ref .requireOpenusdVersion, "\" \"$\x7b\x7b ",
     .key .runtimeRemote, " != '' && 'remote-pull' || 'local-registry' \x7d\x7d\" > ",
     ".ost-ci/runtime-source.json"],
    ["          set --"],
    ["          if [ -n \"", .ref .requireOpenusd, "\" ]; then"],
    ["            set -- \"$@\" --require-openusd \"", .ref .requireOpenusd, "\""],
    ["          fi"],
    ["          if [ -n \"", .ref .requireOpenusdVersion, "\" ]; then"],
    ["            set -- \"$@\" --require-openusd-version \"", .ref .requireOpenusdVersion, "\""],
    ["          fi"],
    [.text "          ost artifact verify ", .ref .runtimeArtifact, .text " --minimum-trust ",
     .ref .minimumTrust, .text " ", .ref .evidenceFlags, .text " \"$@\""] ++ policyFlag m,
    ["          ost runtime pull ", .ref .platform, " --profile ", .ref .profile,
     " --from-artifact ", .ref .runtimeArtifact, " --force"],
    ["      - name: Pull digest-pinned external library artifacts"],
    ["        shell: bash"],
    ["        run: ost library pull --target ", .ref .platform, " --profile ", .ref .profile,
     " --json"]] ++
  runtimeCacheSaveStep m.bootstrap ++
  prebuildSteps m

/-! ## Repository checks and job steps -/

/-- The repository checks, each a quoted name and a literal block scalar. `condition` gates every
check when one job carries several rungs. -/
def sourceCheckSteps (checks : List SourceCheck) (condition : Document) : Document :=
  checks.flatMap fun check =>
    lines [["      - name: \"", .value check.name, "\""]] ++
    (if condition.isEmpty then [] else lines [[.text "        if: "] ++ condition]) ++
    lines [["        shell: bash"], ["        run: |"]] ++ [.script check.run]

/-- The rungs at which the repository checks of a workspace job run. -/
def pyramidCondition : Document :=
  ["$\x7b\x7b ", .key .verify, " == 'pyramid' || ", .key .verify, " == 'package' \x7d\x7d"]

/-- The graph gate alone: no runtime is fetched. -/
def workspaceGraphSteps (m : SupportMatrix) : Document :=
  checkoutPreamble m ++
  lines [
    ["      - name: Validate the workspace dependency graph"],
    ["        shell: bash"],
    ["        run: ost plugin test --workspace --graph-only --json"]]

/-- The workspace build, its tests, the pyramid and the packages, gated by the rung. -/
def workspaceSteps (m : SupportMatrix) : Document :=
  sourcePreamble m ++
  lines [
    ["      - name: Validate the workspace dependency graph"],
    ["        shell: bash"],
    ["        run: ost plugin test --workspace --graph-only --json"],
    ["      - name: Build the workspace from source"],
    ["        shell: bash"],
    ["        run: ost build --target ", .ref .platform, " --profile ", .ref .profile, " ",
     .ref .intentFlags],
    ["      - name: Run the workspace test suite"],
    ["        if: $\x7b\x7b ", .key .verify, " != 'build' \x7d\x7d"],
    ["        shell: bash"],
    ["        run: ost test --target ", .ref .platform, " --profile ", .ref .profile, " ",
     .ref .intentFlags],
    ["      - name: Run the workspace verification pyramid"],
    ["        if: $\x7b\x7b ", .key .verify, " == 'pyramid' || ", .key .verify,
     " == 'package' \x7d\x7d"],
    ["        shell: bash"],
    ["        run: ost plugin test --workspace --target ", .ref .platform, " --profile ",
     .ref .profile, " --up-to ", .ref .upTo, " --json"]] ++
  sourceCheckSteps m.sourceChecks pyramidCondition ++
  lines [
    ["      - name: Package the workspace and aggregate product (never published ",
     "from this workflow)"],
    ["        if: $\x7b\x7b ", .key .verify, " == 'package' \x7d\x7d"],
    ["        shell: bash"],
    ["        run: ost plugin package --workspace --product --target ", .ref .platform,
     " --profile ", .ref .profile, " --json"],
    ["      - name: Upload the build logs and CI evidence"],
    ["        if: always()"],
    ["        uses: ", .text UPLOAD_ARTIFACT],
    ["        with:"],
    ["          name: report-", .ref .name],
    ["          path: |"],
    ["            .strata/targets/"],
    ["            **/.strata/reports/"],
    ["            **/dist/plugins/"],
    ["            **/dist/tools/"],
    ["            dist/products/"],
    ["            .ost-ci/"]]

/-- A workspace build to which no runtime is given. -/
def runtimeFreeWorkspaceSteps (m : SupportMatrix) : Document :=
  checkoutPreamble m ++
  (if m.needsHostPackages then HOST_PACKAGES_STEP else []) ++
  lines [
    ["      - name: Validate the workspace dependency graph"],
    ["        shell: bash"],
    ["        run: ost plugin test --workspace --graph-only --json"],
    ["      - name: Build the runtime-free workspace from source"],
    ["        shell: bash"],
    ["        run: ost build --without-runtime --target ", .ref .platform, " --profile ",
     .ref .profile, " ", .ref .intentFlags],
    ["      - name: Run the runtime-free workspace test suite"],
    ["        if: $\x7b\x7b ", .key .verify, " == 'test' \x7d\x7d"],
    ["        shell: bash"],
    ["        run: ost test --without-runtime --target ", .ref .platform, " --profile ",
     .ref .profile, " ", .ref .intentFlags],
    ["      - name: Upload the build logs and CI evidence"],
    ["        if: always()"],
    ["        uses: ", .text UPLOAD_ARTIFACT],
    ["        with:"],
    ["          name: report-", .ref .name],
    ["          path: |"],
    ["            .strata/targets/"],
    ["            .ost-ci/"]]

/-- The steps of a bundle job. -/
def sourceSteps (m : SupportMatrix) : Document :=
  sourcePreamble m ++
  lines [
    ["      - name: Build the plugin from source"],
    ["        shell: bash"],
    ["        run: ost plugin build ", .ref .bundle, " --target ", .ref .platform, " --profile ",
     .ref .profile],
    ["      - name: Run the verification pyramid"],
    ["        shell: bash"],
    ["        run: ost plugin test ", .ref .bundle, " --target ", .ref .platform, " --profile ",
     .ref .profile, " --up-to ", .ref .upTo, " --json"]] ++
  sourceCheckSteps m.sourceChecks [] ++
  lines [
    ["      - name: Package the plugin (never published from this workflow)"],
    ["        shell: bash"],
    ["        run: ost plugin package ", .ref .bundle, " --target ", .ref .platform,
     " --profile ", .ref .profile],
    ["      - name: Upload the verification report and CI evidence"],
    ["        if: always()"],
    ["        uses: ", .text UPLOAD_ARTIFACT],
    ["        with:"],
    ["          name: report-", .ref .name],
    ["          path: |"],
    ["            ", .ref .bundle, "/.strata/reports/"],
    ["            .ost-ci/"]]

/-- The steps that verify a pinned pair again. -/
def supportSteps (m : SupportMatrix) : Document :=
  lines [
    ["    steps:"]] ++
  BILLING_NOTICE ++
  (m.trust.policy.elim [] fun _ => lines [
    ["      - name: Check out the repository trust policy"],
    ["        uses: ", .text CHECKOUT]]) ++
  lines [
    ["      - name: Check the pinned artifacts are in the local registry"],
    ["        run: |"],
    ["          ost artifact show ", .ref .runtimeArtifact],
    ["          ost artifact show ", .ref .pluginArtifact],
    ["      - name: Verify artifact integrity"],
    ["        run: |"],
    [.text "          ost artifact verify ", .ref .runtimeArtifact, .text " --minimum-trust ",
     .ref .minimumTrust, .text " ", .ref .evidenceFlags, .text " ", .ref .openusdFlags] ++
      policyFlag m,
    [.text "          ost artifact verify ", .ref .pluginArtifact, .text " --minimum-trust ",
     .ref .minimumTrust, .text " ", .ref .evidenceFlags] ++ policyFlag m,
    ["      - name: Materialize the runtime from the registry"],
    ["        run: ost runtime pull ", .ref .platform, " --profile ", .ref .profile,
     " --from-artifact ", .ref .runtimeArtifact, " --force"],
    ["      - name: Extract the plugin bundle under test"],
    ["        run: ost artifact extract ", .ref .pluginArtifact, " plugin-under-test"],
    ["      - name: Run the verification pyramid"],
    ["        run: ost plugin test plugin-under-test --target ", .ref .platform, " --profile ",
     .ref .profile, " --up-to ", .ref .upTo, " --json"],
    ["      - name: Upload the verification report"],
    ["        if: always()"],
    ["        uses: ", .text UPLOAD_ARTIFACT],
    ["        with:"],
    ["          name: report-", .ref .name],
    ["          path: plugin-under-test/.strata/reports/"]]

end OpenStrata.Ci
