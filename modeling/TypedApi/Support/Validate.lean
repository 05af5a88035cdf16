/-! # The support file for values

The functions that generated code calls to check the values that it reads and to convert those
that it writes.
-/
namespace TypedApi.Support

/-- The lines of `validate.ts`. -/
def validateLines : List String :=
  ["import EmailValidator from \"email-validator\";",
   "",
   "/**",
   " * Determines if something is `undefined` or `null`.",
   " *",
   " * @param thing",
   " *   The thing to test.",
   " * @return",
   " *   `true` if `thing` was `undefined` or `null`.",
   " */",
   "export const isUndefined = (thing: unknown): thing is undefined | null =>",
   "\tthing === undefined || thing === null;",
   "",
   "const describe = (thing: unknown): string =>",
   "\t`$\x7btypeof thing === \"string\" ? JSON.stringify(thing) : String(thing)\x7d ($\x7btypeof thing\x7d)`;",
   "",
   "/**",
   " * Error thrown when a value does not have the expected shape.",
   " *",
   " * Controllers report it as a `400`; any other error is a server error.",
   " */",
   "export class ValidationError extends TypeError \x7b",
   "\tconstructor(message: string) \x7b",
   "\t\tsuper(message);",
   "\t\tthis.name = \"ValidationError\";",
   "\t\x7d",
   "\x7d",
   "",
   "const fail = (context: string[], expected: string, thing: unknown): never => \x7b",
   "\tthrow new ValidationError(`Expected '$\x7bcontext.join(\".\")\x7d' to be $\x7bexpected\x7d, but found: $\x7bdescribe(thing)\x7d`);",
   "\x7d;",
   "",
   "/**",
   " * Validates that something is a plain object.",
   " *",
   " * @param thing",
   " *   The thing to test.",
   " * @param context",
   " *   The context to report in error messages.",
   " * @return",
   " *   `thing` as a record of unknown values.",
   " * @throws \x7bValidationError\x7d",
   " *   If `thing` was not a plain object.",
   " */",
   "export const validateObject = (thing: unknown, context: string[]): Readonly<Record<string, unknown>> => \x7b",
   "\tif (thing !== null && typeof thing === \"object\" && !Array.isArray(thing)) \x7b",
   "\t\treturn thing as Record<string, unknown>;",
   "\t\x7d",
   "\treturn fail(context, \"an object\", thing);",
   "\x7d;",
   "",
   "/** Validates that something is a boolean. */",
   "export const validateBoolean = (thing: unknown, context: string[]): boolean => \x7b",
   "\tif (typeof thing === \"boolean\") \x7b",
   "\t\treturn thing;",
   "\t\x7d",
   "\treturn fail(context, \"a boolean\", thing);",
   "\x7d;",
   "",
   "/** Validates that something is a boolean, or the string `\"true\"` or `\"false\"`. */",
   "export const validateBooleanString = (thing: unknown, context: string[]): boolean => \x7b",
   "\tif (thing === \"true\") \x7b",
   "\t\treturn true;",
   "\t\x7d",
   "\tif (thing === \"false\") \x7b",
   "\t\treturn false;",
   "\t\x7d",
   "\treturn validateBoolean(thing, context);",
   "\x7d;",
   "",
   "/** Validates that something is a finite number. */",
   "export const validateNumber = (thing: unknown, context: string[]): number => \x7b",
   "\tif (typeof thing === \"number\" && Number.isFinite(thing)) \x7b",
   "\t\treturn thing;",
   "\t\x7d",
   "\treturn fail(context, \"a number\", thing);",
   "\x7d;",
   "",
   "const DECIMAL = /^-?(?:0|[1-9]\\d*)(?:\\.\\d+)?$/;",
   "",
   "/** Validates that something is a number, or a plain decimal string such as `-12.5`. */",
   "export const validateNumberString = (thing: unknown, context: string[]): number => \x7b",
   "\tif (typeof thing === \"string\") \x7b",
   "\t\tif (DECIMAL.test(thing)) \x7b",
   "\t\t\treturn Number(thing);",
   "\t\t\x7d",
   "\t\treturn fail(context, \"a decimal number\", thing);",
   "\t\x7d",
   "\treturn validateNumber(thing, context);",
   "\x7d;",
   "",
   "/** Validates that something is an integer. */",
   "export const validateInteger = (thing: unknown, context: string[]): number => \x7b",
   "\tconst number = validateNumber(thing, context);",
   "\tif (Number.isInteger(number)) \x7b",
   "\t\treturn number;",
   "\t\x7d",
   "\treturn fail(context, \"an integer\", thing);",
   "\x7d;",
   "",
   "/** Validates that something is an integer, or a string holding one. */",
   "export const validateIntegerString = (thing: unknown, context: string[]): number => \x7b",
   "\tconst number = validateNumberString(thing, context);",
   "\tif (Number.isInteger(number)) \x7b",
   "\t\treturn number;",
   "\t\x7d",
   "\treturn fail(context, \"an integer\", thing);",
   "\x7d;",
   "",
   "/** Options for validating strings. */",
   "export type ValidateStringOptions = \x7b",
   "\t/** Minimum string length. */",
   "\tminLength?: number;",
   "",
   "\t/** Maximum string length. */",
   "\tmaxLength?: number;",
   "",
   "\t/** Flag to validate proper email format. */",
   "\temail?: true;",
   "\x7d;",
   "",
   "/**",
   " * Validates that something is a string.",
   " *",
   " * @param thing",
   " *   The thing to test.",
   " * @param context",
   " *   The context to report in error messages.",
   " * @param options",
   " *   The string validation options (minLength, maxLength, email).",
   " * @return",
   " *   `thing` if it was a string.",
   " * @throws \x7bValidationError\x7d",
   " *   If `thing` was not a string or did not satisfy `options`.",
   " */",
   "export const validateString = (",
   "\tthing: unknown,",
   "\tcontext: string[],",
   "\toptions: ValidateStringOptions = \x7b\x7d,",
   "): string => \x7b",
   "\tif (typeof thing !== \"string\") \x7b",
   "\t\treturn fail(context, \"a string\", thing);",
   "\t\x7d",
   "\tconst \x7b minLength, maxLength, email \x7d = options;",
   "\tif (",
   "\t\t(minLength !== undefined && thing.length < minLength) ||",
   "\t\t(maxLength !== undefined && thing.length > maxLength)",
   "\t) \x7b",
   "\t\tconst expected =",
   "\t\t\tminLength === undefined",
   "\t\t\t\t? `at most $\x7bmaxLength\x7d`",
   "\t\t\t\t: maxLength === undefined",
   "\t\t\t\t? `at least $\x7bminLength\x7d`",
   "\t\t\t\t: minLength === maxLength",
   "\t\t\t\t? `exactly $\x7bminLength\x7d`",
   "\t\t\t\t: `between $\x7bminLength\x7d and $\x7bmaxLength\x7d`;",
   "\t\treturn fail(context, `$\x7bexpected\x7d characters`, thing);",
   "\t\x7d",
   "\tif (email && !EmailValidator.validate(thing)) \x7b",
   "\t\treturn fail(context, \"an email\", thing);",
   "\t\x7d",
   "\treturn thing;",
   "\x7d;",
   "",
   "const pad = (value: number, width: number): string => String(value).padStart(width, \"0\");",
   "",
   "const checkDate = (date: Date, year: number, month: number, day: number): boolean =>",
   "\tdate.getUTCFullYear() === year && date.getUTCMonth() === month - 1 && date.getUTCDate() === day;",
   "",
   "/**",
   " * Validates that something is an ISO date in the form `YYYY-MM-DD`.",
   " *",
   " * @return",
   " *   A `Date` at midnight UTC.",
   " */",
   "export const validateDate = (thing: unknown, context: string[]): Date => \x7b",
   "\tconst s = validateString(thing, context);",
   "\tconst m = /^(\\d\x7b4\x7d)-(\\d\x7b2\x7d)-(\\d\x7b2\x7d)$/.exec(s);",
   "\tif (m) \x7b",
   "\t\tconst [year, month, day] = m.slice(1).map((part) => parseInt(part, 10));",
   "\t\tconst date = new Date(Date.UTC(year, month - 1, day));",
   "\t\tdate.setUTCFullYear(year);",
   "\t\tif (checkDate(date, year, month, day)) \x7b",
   "\t\t\treturn date;",
   "\t\t\x7d",
   "\t\x7d",
   "\treturn fail(context, \"a date (YYYY-MM-DD)\", thing);",
   "\x7d;",
   "",
   "/**",
   " * Validates that something is an ISO date-time in the form `YYYY-MM-DDTHH:mm:ss.sssZ`.",
   " *",
   " * @return",
   " *   The `Date` the string denotes, in UTC.",
   " */",
   "export const validateDateTime = (thing: unknown, context: string[]): Date => \x7b",
   "\tconst s = validateString(thing, context);",
   "\tconst m = /^(\\d\x7b4\x7d)-(\\d\x7b2\x7d)-(\\d\x7b2\x7d)T(\\d\x7b2\x7d):(\\d\x7b2\x7d):(\\d\x7b2\x7d)\\.(\\d\x7b3\x7d)Z$/.exec(s);",
   "\tif (m) \x7b",
   "\t\tconst [year, month, day, hour, minute, second, millisecond] = m",
   "\t\t\t.slice(1)",
   "\t\t\t.map((part) => parseInt(part, 10));",
   "\t\tconst date = new Date(Date.UTC(year, month - 1, day, hour, minute, second, millisecond));",
   "\t\tdate.setUTCFullYear(year);",
   "\t\tif (",
   "\t\t\tcheckDate(date, year, month, day) &&",
   "\t\t\tdate.getUTCHours() === hour &&",
   "\t\t\tdate.getUTCMinutes() === minute &&",
   "\t\t\tdate.getUTCSeconds() === second",
   "\t\t) \x7b",
   "\t\t\treturn date;",
   "\t\t\x7d",
   "\t\x7d",
   "\treturn fail(context, \"a date-time (YYYY-MM-DDTHH:mm:ss.sssZ)\", thing);",
   "\x7d;",
   "",
   "const validateValidDate = (value: unknown): Date => \x7b",
   "\tif (value instanceof Date && !Number.isNaN(value.getTime())) \x7b",
   "\t\treturn value;",
   "\t\x7d",
   "\treturn fail([], \"a valid Date\", value);",
   "\x7d;",
   "",
   "/** Converts a `Date` to a `YYYY-MM-DD` string in UTC. */",
   "export const printDate = (value: Date): string => \x7b",
   "\tconst date = validateValidDate(value);",
   "\treturn `$\x7bpad(date.getUTCFullYear(), 4)\x7d-$\x7bpad(date.getUTCMonth() + 1, 2)\x7d-$\x7bpad(date.getUTCDate(), 2)\x7d`;",
   "\x7d;",
   "",
   "/** Converts a `Date` to a `YYYY-MM-DDTHH:mm:ss.sssZ` string in UTC. */",
   "export const printDateTime = (value: Date): string =>",
   "\t`$\x7bprintDate(value)\x7dT$\x7bpad(value.getUTCHours(), 2)\x7d:$\x7bpad(value.getUTCMinutes(), 2)\x7d:$\x7bpad(",
   "\t\tvalue.getUTCSeconds(),",
   "\t\t2,",
   "\t)\x7d.$\x7bpad(value.getUTCMilliseconds(), 3)\x7dZ`;",
   "",
   "/**",
   " * Validates that something is an array.",
   " *",
   " * @param thing",
   " *   The thing to test.",
   " * @param mapper",
   " *   The function to apply to each item, given the item's context.",
   " * @param context",
   " *   The context to report in error messages.",
   " * @return",
   " *   The mapped items.",
   " * @throws \x7bValidationError\x7d",
   " *   If `thing` was not an array, or an item failed to validate.",
   " */",
   "export const validateArray = <T>(",
   "\tthing: unknown,",
   "\tmapper: (item: unknown, context: string[]) => T,",
   "\tcontext: string[],",
   "): T[] => \x7b",
   "\tif (Array.isArray(thing)) \x7b",
   "\t\treturn thing.map((item, index) => mapper(item, [...context, String(index)]));",
   "\t\x7d",
   "\treturn fail(context, \"an array\", thing);",
   "\x7d;",
   "",
   "/**",
   " * Validates a repeated URL parameter.",
   " *",
   " * A single value is treated as an array of one item.",
   " */",
   "export const validateParamArray = <T>(",
   "\tthing: unknown,",
   "\tmapper: (item: unknown, context: string[]) => T,",
   "\tcontext: string[],",
   "): T[] => validateArray(Array.isArray(thing) ? thing : [thing], mapper, context);",
   "",
   "/**",
   " * Validates that something is a map of string keys to values.",
   " *",
   " * @param thing",
   " *   The thing to test.",
   " * @param mapper",
   " *   The function to apply to each value, given the value's context.",
   " * @param context",
   " *   The context to report in error messages.",
   " * @return",
   " *   A new record of the mapped values.",
   " * @throws \x7bValidationError\x7d",
   " *   If `thing` was not a plain object, or a value failed to validate.",
   " */",
   "export const validateMap = <T>(",
   "\tthing: unknown,",
   "\tmapper: (value: unknown, context: string[]) => T,",
   "\tcontext: string[],",
   "): Record<string, T> =>",
   "\t// fromEntries defines own properties, so a \"__proto__\" key is kept.",
   "\tObject.fromEntries(",
   "\t\tObject.entries(validateObject(thing, context)).map(([key, value]) => [key, mapper(value, [...context, key])]),",
   "\t);",
   "",
   "/**",
   " * Converts a map to JSON.",
   " *",
   " * @param record",
   " *   The map to convert.",
   " * @param printer",
   " *   The function to convert each value to JSON.",
   " * @return",
   " *   A JSON version of `record`.",
   " */",
   "export const printMap = <T>(record: Readonly<Record<string, T>>, printer: (value: T) => any): any =>",
   "\tObject.fromEntries(Object.entries(record).map(([key, value]) => [key, printer(value)]));",
   "",
   "/**",
   " * Validates that something is one of a known list of values.",
   " *",
   " * @param thing",
   " *   The thing to test.",
   " * @param values",
   " *   The list of known values.",
   " * @param context",
   " *   The context to report in error messages.",
   " * @return",
   " *   `thing` if it was one of the known values.",
   " * @throws \x7bValidationError\x7d",
   " *   If `thing` was not one of the known values.",
   " */",
   "export const validateOneOf = <E>(thing: unknown, values: ReadonlyArray<E>, context: string[]): E => \x7b",
   "\tif (values.includes(thing as E)) \x7b",
   "\t\treturn thing as E;",
   "\t\x7d",
   "\treturn fail(context, `one of [$\x7bvalues.join(\", \")\x7d]`, thing);",
   "\x7d;",
   "",
   "/**",
   " * Validates something against alternatives, in order.",
   " *",
   " * @param thing",
   " *   The thing to test.",
   " * @param validators",
   " *   The alternatives to try.",
   " * @param context",
   " *   The context to report in error messages.",
   " * @return",
   " *   The result of the first alternative that succeeded.",
   " * @throws \x7bValidationError\x7d",
   " *   If every alternative failed; the message lists each failure.",
   " */",
   "export const validateFirst = <T>(",
   "\tthing: unknown,",
   "\tvalidators: ReadonlyArray<(thing: unknown, context: string[]) => T>,",
   "\tcontext: string[],",
   "): T => \x7b",
   "\tconst messages: string[] = [];",
   "\tfor (const validate of validators) \x7b",
   "\t\ttry \x7b",
   "\t\t\treturn validate(thing, context);",
   "\t\t\x7d catch (error) \x7b",
   "\t\t\tmessages.push(error instanceof Error ? error.message : String(error));",
   "\t\t\x7d",
   "\t\x7d",
   "\tthrow new ValidationError(",
   "\t\t`Expected '$\x7bcontext.join(\".\")\x7d' to match one of $\x7bvalidators.length\x7d alternatives: $\x7bmessages.join(\"; \")\x7d`,",
   "\t);",
   "\x7d;",
   "",
   "/**",
   " * Converts a value to JSON with the first printer that accepts it.",
   " *",
   " * @param value",
   " *   The value to convert.",
   " * @param printers",
   " *   The printers to try, in order.",
   " * @return",
   " *   The result of the first printer that succeeded.",
   " * @throws \x7bValidationError\x7d",
   " *   If every printer failed.",
   " */",
   "export const printFirst = (value: unknown, printers: ReadonlyArray<(value: any) => any>): any => \x7b",
   "\tconst messages: string[] = [];",
   "\tfor (const print of printers) \x7b",
   "\t\ttry \x7b",
   "\t\t\treturn print(value);",
   "\t\t\x7d catch (error) \x7b",
   "\t\t\tmessages.push(error instanceof Error ? error.message : String(error));",
   "\t\t\x7d",
   "\t\x7d",
   "\tthrow new ValidationError(`Unable to print value with any alternative: $\x7bmessages.join(\"; \")\x7d`);",
   "\x7d;",
   ""]

end TypedApi.Support
