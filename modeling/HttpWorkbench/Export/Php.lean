import HttpWorkbench.Export.Generator

/-!
# PHP programs

A script that sets the options of one transfer. Url, method and headers are double-quoted
strings, the body is a single-quoted one.
-/

namespace HttpWorkbench.Export.Php

/-- The program. -/
def template : Template := [
  .lines ["<?php", "", "$curl = curl_init();", "", "curl_setopt_array($curl, ["],
  .text "    CURLOPT_URL => \"", .quoted "url" (.backslash '"'), .text "\",\n",
  .lines ["    CURLOPT_RETURNTRANSFER => true,"],
  .text "    CURLOPT_CUSTOMREQUEST => \"", .quoted "method" (.backslash '"'),
  .text "\",\n",
  .choice (.holds "headers")
    [.lines ["    CURLOPT_HTTPHEADER => ["],
      .eachHeader [
        .text "        \"", .headerPart .key, .text ": ", .headerPart .value, .text "\",\n"],
      .lines ["    ],"]]
    [],
  .choice (.given "body")
    [.text "    CURLOPT_POSTFIELDS => '", .quoted "body" (.backslash '\x27'), .text "',\n"]
    [],
  .lines ["]);", "", "$response = curl_exec($curl);", "$error = curl_error($curl);", "",
    "curl_close($curl);", "", "if ($error) \x7b", "    echo \"cURL Error: \" . $error;",
    "\x7d else \x7b", "    echo $response;"],
  .text "\x7d"]

/-- The generator of PHP programs. -/
def generator : Generator where
  className := "PhpGenerator"
  moduleName := "request_explorer.codegen.languages.php.generator"
  languageName := "php"
  displayName := "PHP (cURL)"
  fileExtension := ".php"
  syntaxName := "php"
  file := some {
    directory := "<src>/request_explorer/codegen/languages/php/templates"
    name := "curl.php.j2"
    template }
  extend _ _ := .ok []

end HttpWorkbench.Export.Php
